import Singlink.Adapter.Inbound
import Singlink.V2Board.Controller
/-!
# Closing a controller

`Close` in any order with the actions of `sync` and `push`. Each section that
creates an inbound, writes the tracker's node or sets a ready status asks first
whether the controller is closed, so once `Close` has left its section all of
that is over.
-/

namespace Singlink.V2Board

open Lib Prog Controller

/-! ## The manager of the program -/

/-- `os.ErrInvalid`. -/
def errInvalid : GoError := { message := "invalid argument", kinds := [.invalid] }

/-- The host whose manager is the program's, for one tag. -/
def Host.withManager (H : Host) (tag : String) : Host :=
  { H with
    Manager := Inbound.OptionManager (Option H.Options)
    Outcome := Adapter.CreateOutcome GoError
    get := fun m => m.get tag
    create := fun m outcome type options => m.create errInvalid tag type options outcome
    remove := fun m outcome => m.remove errInvalid tag outcome }

/-- After `Remove` nothing is registered. -/
def Host.RemoveDeletes (H : Host) : Prop := ∀ m outcome, H.get (H.remove m outcome).2 = none

theorem removeDeletes_withManager (H : Host) (tag : String) : (H.withManager tag).RemoveDeletes :=
  fun m outcome => m.get_remove _ tag outcome

/-! ## Sealed controllers -/

variable {H : Host} (o : NodeOptions)

/-- No inbound, no node in the tracker, no ready status. -/
structure Controller.Sealed (c : Controller H) : Prop where
  get : H.get c.manager = none
  tracker : c.tracker = none
  statusReady : c.statusReady = false

/-- `c'` is `c` as far as a sealed controller goes. -/
structure Controller.Same (c c' : Controller H) : Prop where
  closed : c'.closed = c.closed
  manager : c'.manager = c.manager
  tracker : c'.tracker = c.tracker
  statusReady : c'.statusReady = c.statusReady

/-- An action that changes nothing of a closed controller without a node in the
tracker, and that closes none except by sealing it. -/
structure Keeps (f : Controller H → Controller H) : Prop where
  closed : ∀ c : Controller H, c.closed = true → c.tracker = none → c.Same (f c)
  opened : ∀ c : Controller H, c.closed = false → (f c).closed = true → (f c).Sealed

variable {f : Controller H → Controller H}

theorem Keeps.of_guarded (hclosed : ∀ c : Controller H, c.closed = true → f c = c)
    (hopen : ∀ c : Controller H, c.closed = false → (f c).closed = false) : Keeps f where
  closed c hc _ := by
    rw [hclosed c hc]
    exact ⟨rfl, rfl, rfl, rfl⟩
  opened c hc hc' := by
    rw [hopen c hc] at hc'
    cases hc'

/-- The part of a controller the status is about. -/
def Controller.view (c : Controller H) :
    Bool × String × H.Manager × Inbound H.Options × Option (NodeInfo H.Settings) :=
  (c.statusReady, c.appliedRevision, c.manager, c.current, c.currentNode)

/-- An action that leaves the inbound and the status alone, and puts no node into
the tracker. -/
def Aside (f : Controller H → Controller H) : Prop :=
  ∀ c, (f c).view = c.view ∧ (f c).closed = c.closed ∧ (c.tracker = none → (f c).tracker = none)

theorem Aside.tracker (g : Controller H → NodeTraffic (NodeRules H.Regexp H.Pfx) → NodeTraffic (NodeRules H.Regexp H.Pfx)) :
    Aside fun c : Controller H => { c with tracker := c.tracker.map (g c) } :=
  fun _ => ⟨rfl, rfl, Option.map_eq_none_iff.2⟩

theorem Keeps.of_aside (h : Aside f) : Keeps f where
  closed c _ htracker := by
    obtain ⟨hview, hclosed, hnone⟩ := h c
    simp only [view, Prod.mk.injEq] at hview
    exact ⟨hclosed, hview.2.2.1, (hnone htracker).trans htracker.symm, hview.1⟩
  opened c hopen hclosed := by
    rw [(h c).2.1, hopen] at hclosed
    cases hclosed

/-! ## Programs that stay aside -/

section

variable {K : (Controller H → Controller H) → Prop} (hK : ∀ {f}, Aside f → K f) (env : SyncEnv H)

include hK

theorem each_read (f : Controller H → α) : (read f).Each K := .read (hK fun _ => ⟨rfl, rfl, id⟩) f

theorem each_reportStatus : (reportStatus : Prog (Controller H) Unit).Each K := by
  refine .modify (hK fun c => ?_)
  split
  · exact ⟨rfl, rfl, id⟩
  · exact ⟨rfl, rfl, id⟩

theorem each_reportStatusBestEffort : (reportStatusBestEffort : Prog (Controller H) Unit).Each K := by
  refine .bind (each_read hK _) fun statusRunning => ?_
  split
  · exact .pure _
  · exact each_reportStatus hK

theorem each_reportStatusIf (due : Bool) : (reportStatusIf due : Prog (Controller H) Unit).Each K := by
  unfold reportStatusIf
  split
  · exact each_reportStatusBestEffort hK
  · exact .pure _

theorem each_syncNode : (syncNode o env).Each K := by
  refine .bind (.atomic (hK fun _ => ⟨rfl, rfl, id⟩)) fun answer => ?_
  split
  · refine .bind ?_ fun _ => .pure _
    refine .bind (.modify (hK fun _ => ⟨rfl, rfl, id⟩)) fun _ => ?_
    refine .bind (.modify (hK fun _ => ⟨rfl, rfl, id⟩)) fun _ => ?_
    exact .atomic (hK fun _ => ⟨rfl, rfl, id⟩)
  · split
    · exact .pure _
    · split
      · exact .pure _
      · exact .pure _

theorem each_syncUsers (hunavailable : (reportUnavailableStatusBestEffort : Prog (Controller H) Unit).Each K)
    (users : Option (List UserInfo)) : (syncUsers env users).Each K := by
  unfold syncUsers
  split
  · exact .pure _
  · refine .bind (.atomic (hK fun _ => ⟨rfl, rfl, id⟩)) fun answer => ?_
    split
    · exact .pure _
    · split
      · exact .pure _
      · exact .bind hunavailable fun _ => .pure _

theorem each_syncAlive : (syncAlive o env).Each K := by
  unfold syncAlive
  split
  · exact .pure _
  · refine .bind (.modify (hK fun _ => ⟨rfl, rfl, id⟩)) fun _ => ?_
    refine .bind (each_read hK _) fun inboundReady => .bind (.modify (hK ?_)) fun _ => .pure _
    cases inboundReady with
    | false => exact fun _ => ⟨rfl, rfl, id⟩
    | true => exact .tracker _

theorem each_push (env : PushEnv) : (push o env : Prog (Controller H) (Option SyncError)).Each K := by
  refine .bind (each_read hK _) fun inboundReady => ?_
  split
  · exact .pure _
  · refine .bind (.atomic (hK fun c => ?_)) fun s => ?_
    · unfold snapshot
      split
      · exact ⟨rfl, rfl, id⟩
      · rename_i htracker
        exact ⟨rfl, rfl, fun hnone => nomatch htracker.symm.trans hnone⟩
    · split
      · exact .bind (.modify (hK (.tracker _))) fun _ => .bind (.modify (hK (.tracker _))) fun _ => .pure _
      · refine .bind (.modify (hK fun _ => ⟨rfl, rfl, id⟩)) fun _ => ?_
        split
        · exact .bind (.modify (hK (.tracker _))) fun _ => .pure _
        · exact .bind (.modify (hK fun _ => ⟨rfl, rfl, id⟩)) fun _ => .pure _

end

/-! ## The actions -/

theorem keeps_reportUnavailableStatusBestEffort :
    (reportUnavailableStatusBestEffort : Prog (Controller H) Unit).Each Keeps := by
  refine .bind (.atomic (.of_guarded ?_ ?_)) fun unavailable => ?_
  · intro c hc
    simp [hc]
  · intro c hc
    split
    · exact hc
    · exact hc
  · exact each_reportStatusIf .of_aside unavailable

theorem restoreCurrentInbound_closed (c : Controller H) (outcome : H.Outcome) :
    (c.restoreCurrentInbound outcome).2.closed = c.closed := by
  unfold restoreCurrentInbound
  split <;> rfl

theorem replaceInbound_closed (c : Controller H) (env : SyncEnv H) (inbound : Inbound H.Options) (err : GoError) :
    (c.replaceInbound env inbound err).2.closed = c.closed := by
  have hrestore : ∀ c' : Controller H, ∀ r, c'.restoreCurrentInbound env.restore = r → r.2.closed = c'.closed := by
    rintro c' _ rfl
    exact restoreCurrentInbound_closed c' env.restore
  unfold replaceInbound
  simp only
  split
  · split
    · rfl
    · split
      · rename_i h
        exact hrestore _ _ h
      · rename_i h
        exact hrestore _ _ h
  · split
    · rename_i h
      exact congrArg (fun r : Option GoError × Controller H => r.2.closed) h.symm
    · rename_i h
      have hc := congrArg (fun r : Option GoError × Controller H => r.2.closed) h
      split
      · rename_i h'
        exact (hrestore _ _ h').trans hc.symm
      · rename_i h'
        exact (hrestore _ _ h').trans hc.symm

variable (env : SyncEnv H)

theorem keeps_applyInbound (inbound : Inbound H.Options) : (applyInbound env inbound).Each Keeps := by
  refine .bind (.atomic (.of_guarded ?_ ?_)) fun result => ?_
  · intro c hc
    simp [applySection, hc]
  · intro c hc
    simp only [applySection, hc, Bool.false_eq_true, if_false]
    split
    · rename_i h
      exact (congrArg (fun r : Option GoError × Controller H => r.2.closed) h).symm.trans hc
    · rename_i h
      have hc' := (congrArg (fun r : Option GoError × Controller H => r.2.closed) h).symm.trans hc
      split
      · exact hc'
      · split
        · exact hc'
        · rw [replaceInbound_closed]
          exact hc'
  · exact .bind (each_reportStatusIf .of_aside _) fun _ => .pure _

theorem keeps_clearInbound (rules : NodeRules H.Regexp H.Pfx) : (clearInbound o env rules).Each Keeps := by
  refine .bind (.atomic (.of_guarded ?_ ?_)) fun result => ?_
  · intro c hc
    simp [clearSection, hc]
  · intro c hc
    simp only [clearSection, hc, Bool.false_eq_true, if_false]
    split
    · split
      · exact hc
      · exact hc
    · exact hc
  · exact .bind (each_reportStatusIf .of_aside _) fun _ => .pure _

theorem keeps_rebuildInbound (node : NodeInfo H.Settings) : (rebuildInbound o env node).Each Keeps := by
  unfold rebuildInbound
  split
  · exact .bind keeps_reportUnavailableStatusBestEffort fun _ => .pure _
  · rename_i rules _
    refine .bind (each_read .of_aside _) fun activeUsers => ?_
    split
    · exact keeps_clearInbound o env rules
    · split
      · exact .bind keeps_reportUnavailableStatusBestEffort fun _ => .pure _
      · rename_i inbound _
        refine .bind (keeps_applyInbound env inbound) fun applied => ?_
        split
        · exact .pure _
        · refine .bind (.atomic (.of_guarded ?_ ?_)) fun committed => ?_
          · intro c hc
            simp [commitSection, hc]
          · intro c hc
            simp only [commitSection, hc, Bool.false_eq_true, if_false]
            exact hc
          · split
            · exact .pure _
            · exact .bind (each_reportStatusBestEffort .of_aside) fun _ => .pure _

theorem keeps_syncBuild (nodeChanged usersChanged newUsers : Bool) :
    (syncBuild o env nodeChanged usersChanged newUsers).Each Keeps := by
  refine .bind (each_read .of_aside _) fun c => ?_
  split
  · split
    · exact keeps_clearInbound o env _
    · exact .pure _
  · split
    · exact .pure _
    · refine .bind (.modify (.of_aside fun _ => ⟨rfl, rfl, id⟩)) fun _ => ?_
      refine .bind (keeps_rebuildInbound o env _) fun rebuilt => ?_
      split
      · exact .pure _
      · exact .bind (.modify (.of_aside fun _ => ⟨rfl, rfl, id⟩)) fun _ => .pure _

theorem keeps_syncRest (nodeChanged : Bool) (users : Option (List UserInfo)) :
    (syncRest o env nodeChanged users).Each Keeps := by
  refine .bind (each_syncUsers .of_aside env keeps_reportUnavailableStatusBestEffort users) fun users => ?_
  split
  · exact .pure _
  · refine .bind (.atomic (.of_aside fun _ => ⟨rfl, rfl, id⟩)) fun usersChanged => ?_
    refine .bind (each_syncAlive o .of_aside env) fun alive => ?_
    split
    · exact .pure _
    · exact keeps_syncBuild o env _ _ _

theorem keeps_sync : (sync o env).Each Keeps := by
  refine .bind (each_syncNode o .of_aside env) fun node => ?_
  split
  · exact .pure _
  · exact keeps_syncRest o env _ _

/-- `Close` seals the controller, if the manager forgets what it removes. -/
theorem keeps_close (hremove : H.RemoveDeletes) (outcome : H.Outcome) :
    (close outcome : Prog (Controller H) (Option SyncError)).Each Keeps := by
  refine .bind (.atomic ⟨?_, ?_⟩) fun result => .bind (.modify (.of_aside fun c => ?_)) fun _ => .pure _
  · intro c hc _
    simp only [closeSection, hc, if_true]
    exact ⟨rfl, rfl, rfl, rfl⟩
  · intro c hc _
    simp only [closeSection, hc, Bool.false_eq_true, if_false]
    refine ⟨hremove _ _, rfl, ?_⟩
    simp [remove, updateAppliedStatus]
  · split
    · exact ⟨rfl, rfl, id⟩
    · exact ⟨rfl, rfl, id⟩

/-! ## Any order -/

/-- The programs that run on a controller: `sync`, `push`, the status loop's
reports, and `Close`. -/
inductive Task : Prog (Controller H) Unit → Prop
  | sync (env : SyncEnv H) : Task (do let _ ← sync o env)
  | push (env : PushEnv) : Task (do let _ ← push o env)
  | report : Task reportStatus
  | close (outcome : H.Outcome) : Task (do let _ ← close outcome)

/-- Whatever runs on a controller that was open, and in whatever order: once it
is closed, no inbound is registered for its tag, the tracker has no node for it,
and no status is ready; and no action of any program brings one of them back. -/
theorem closed_is_sealed (H : Host) (o : NodeOptions) (p : Pool (Controller (H.withManager o.tag)))
    (hp : Reach (Prog.pool (fun c => c.closed = false) (Task o)) (fun _ _ => True) p)
    (hclosed : p.shared.closed = true) :
    p.shared.Sealed ∧ ∀ p', Pool.Step (Task o) p p' →
      p'.shared.closed = true ∧ p'.shared.manager = p.shared.manager ∧ p'.shared.tracker = none ∧
        p'.shared.statusReady = false := by
  have htask : ∀ t : Prog (Controller (H.withManager o.tag)) Unit, Task o t → t.Each Keeps := by
    intro t ht
    cases ht with
    | sync env => exact .bind (keeps_sync o env) fun _ => .pure _
    | push env => exact .bind (each_push o .of_aside env) fun _ => .pure _
    | report => exact each_reportStatus .of_aside
    | close outcome => exact .bind (keeps_close (removeDeletes_withManager H o.tag) outcome) fun _ => .pure _
  -- an action on a closed controller keeps it sealed, and one that closes it seals it
  have hkeeps : ∀ f : Controller (H.withManager o.tag) → Controller (H.withManager o.tag), Keeps f →
      ∀ c, (c.closed = true → c.Sealed) → (f c).closed = true → (f c).Sealed := by
    intro f hf c hc hc'
    cases hbefore : c.closed with
    | false => exact hf.opened c hbefore hc'
    | true =>
      have hsame := hf.closed c hbefore (hc hbefore).tracker
      exact ⟨(congrArg _ hsame.manager).trans (hc hbefore).get, hsame.tracker.trans (hc hbefore).tracker,
        hsame.statusReady.trans (hc hbefore).statusReady⟩
  have hinit : ∀ c : Controller (H.withManager o.tag), c.closed = false → c.closed = true → c.Sealed := by
    intro c hopen hc
    exact absurd (hopen.symm.trans hc) (by decide)
  obtain ⟨hinv, hthreads⟩ := pool_inv (fun c => c.closed = true → c.Sealed) hinit htask hkeeps hp
  refine ⟨hinv hclosed, ?_⟩
  intro p' hstep
  cases hstep with
  | act =>
    rename_i c before after f k
    have hf : Keeps f := (hthreads (.act f k) (by simp)).1
    have hsame := hf.closed c hclosed (hinv hclosed).tracker
    exact ⟨hsame.closed.trans hclosed, hsame.manager, hsame.tracker.trans (hinv hclosed).tracker,
      hsame.statusReady.trans (hinv hclosed).statusReady⟩
  | spawn _ => exact ⟨hclosed, rfl, (hinv hclosed).tracker, (hinv hclosed).statusReady⟩

/-- A controller of a started manager, as `NewController` makes it. -/
def sampleOpen : Controller (sampleHost.withManager "node") :=
  { nodeHash := [0], userHash := [0], pullInterval := 60 * second, pushInterval := 60 * second
    nodeReportMinTraffic := 0, deviceOnlineMinTraffic := 0
    manager :=
      { manager := { started := true }, consistent := ⟨.empty _, nofun, nofun, nofun⟩, options := fun _ => none } }

/-- A sync that finds a config and one user. -/
def sampleSync : SyncEnv (sampleHost.withManager "node") :=
  { now := 1, aliveNow := 1
    answers :=
      { config := .ok { protocol := "vless", serverPort := 443, settings := () } "c", configUsers := .notModified
        users := .ok [{ id := 7, uuid := "u" }] "u", alive := .ok ∅ "" }
    brutal := none, create := {}, remove := {}, replace := {}, restore := {}, pendingOrder := [], counterOrder := [] }

/-- The sync has created its inbound and not yet written the tracker. -/
def sampleBefore : Pool (Controller (sampleHost.withManager "node")) :=
  (List.replicate 13 0).foldl Pool.act { shared := sampleOpen, threads := [do let _ ← sync sampleOptions sampleSync] }

def sampleOutcome : (sampleHost.withManager "node").Outcome := ({} : Adapter.CreateOutcome GoError)

/-- Then `Close` comes in between. -/
def sampleAfter : Pool (Controller (sampleHost.withManager "node")) :=
  [0].foldl Pool.act { sampleBefore with threads := (do let _ ← close sampleOutcome) :: sampleBefore.threads }

theorem closed_is_sealed_sample :
    (sampleHost.withManager "node").get sampleBefore.shared.manager = some ("vless", some ["u"]) ∧
      sampleAfter.shared.closed = true ∧ sampleAfter.shared.Sealed := by
  have hok : ∀ (p : Pool (Controller (sampleHost.withManager "node"))) (i : Unit), (fun _ _ => True) p i :=
    fun _ _ => trivial
  have hstart : Reach (Prog.pool (fun c => c.closed = false) (Task sampleOptions)) (fun _ _ => True)
      { shared := sampleOpen, threads := [] } := .init ⟨rfl, rfl⟩
  have hbefore := Pool.reach_acts hok (.step (i := ()) hstart trivial (.spawn (.sync sampleSync))) (List.replicate 13 0)
  have hafter := Pool.reach_acts hok (.step (i := ()) hbefore trivial (.spawn (.close sampleOutcome))) [0]
  have hclosed : sampleAfter.shared.closed = true := by decide
  exact ⟨rfl, hclosed, (closed_is_sealed sampleHost sampleOptions sampleAfter hafter hclosed).1⟩

end Singlink.V2Board
