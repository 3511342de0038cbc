import Singlink.V2Board.InPlace
/-!
# Runs of `sync`

Whether a `sync` that ends without an error has in place what the panel returned
last. A change is noticed by a digest, and the digest is stored at once; what
keeps the change from being forgotten when the rest of the `sync` fails is
`pendingBuild`, which is set only after the last request.
-/

namespace Singlink.V2Board

open Lib Prog Bool

variable {H : Host} (o : NodeOptions)

/-! ## What the panel returned -/

def nodeAnswer (a : PanelAnswers H) : Except GoError (NodeInfo H.Settings) := (({} : Client).getNodeInfo o a).1

def userAnswer (a : PanelAnswers H) : Except GoError (List UserInfo) := (({} : Client).getUserList a).1

theorem getNodeInfo_fst (client : Client) (a : PanelAnswers H) : (client.getNodeInfo o a).1 = nodeAnswer o a := by
  unfold nodeAnswer Client.getNodeInfo Client.getServerConfig
  by_cases hstyle : o.apiStyle = apiStyleShadowsocksTidalab
  · simp only [if_pos hstyle]
    cases getShadowsocksTidalabServerConfig a <;> rfl
  · simp only [if_neg hstyle]
    cases a.config <;> rfl

theorem getUserList_fst (client : Client) (a : PanelAnswers H) : (client.getUserList a).1 = userAnswer a := by
  unfold userAnswer Client.getUserList
  cases a.users <;> rfl

/-- The user list last returned, once the config request is answered: in the
`shadowsocks_tidalab` style that answer is a user list itself. -/
def seenUsers (a : PanelAnswers H) (before : List UserInfo) : List UserInfo :=
  if o.apiStyle = apiStyleShadowsocksTidalab then
    match a.configUsers with
    | .ok users _ => users
    | _ => before
  else before

/-- `sync` goes on to the user request. -/
def asksUsers (a : PanelAnswers H) : Bool :=
  match nodeAnswer o a with
  | .ok _ => true
  | .error err => err.is .notModified

/-- The user list last returned, after a `sync`. -/
def lastUsers (a : PanelAnswers H) (before : List UserInfo) : List UserInfo :=
  if asksUsers o a then
    match userAnswer a with
    | .ok users => users
    | .error _ => seenUsers o a before
  else seenUsers o a before

/-- A controller, with what the panel has returned to it last and whether its
context is known to be canceled. -/
structure SyncRun (H : Host) where
  c : Controller H
  lastNode : Option (NodeInfo H.Settings) := none
  lastUsers : List UserInfo := []
  canceled : Bool := false

def SyncError.canceled : SyncError → Bool
  | .err e => e.is .canceled
  | _ => false

def SyncRun.step (s : SyncRun H) (env : SyncEnv H) : SyncRun H where
  c := ((sync o env).run s.c).2
  lastNode := match nodeAnswer o env.answers with
    | .ok node => some node
    | .error _ => s.lastNode
  lastUsers := Singlink.V2Board.lastUsers o env.answers s.lastUsers
  canceled := s.canceled || (((sync o env).run s.c).1.any SyncError.canceled)

/-- The active users of the list last returned. -/
def SyncRun.active (s : SyncRun H) (env : SyncEnv H) : List UserInfo :=
  activePanelUsers H (Singlink.V2Board.lastUsers o env.answers s.lastUsers) env.now

/-- `NewController`. -/
structure SyncRun.New (s : SyncRun H) : Prop where
  node : s.c.node = none
  users : s.c.users = []
  closed : s.c.closed = false
  lastNode : s.lastNode = none
  lastUsers : s.lastUsers = []

/-- The steps that forget nothing. -/
structure SyncRun.Remembers (s : SyncRun H) (env : SyncEnv H) : Prop where
  /-- the user request does not fail after a changed config came in, while an
  inbound runs and no build is due -/
  users : ∀ node, nodeAnswer o env.answers = .ok node → digestNode H node ≠ s.c.nodeHash →
    (∃ message canceled, env.answers.users = .error message canceled) →
    ¬(s.c.inboundReady = true ∧ s.c.current.type ≠ "" ∧ s.c.pendingBuild = false)
  /-- in the `shadowsocks_tidalab` style, the panel says that the user list is not
  modified only if the controller has the one it returned last -/
  notModified : o.apiStyle = apiStyleShadowsocksTidalab → asksUsers o env.answers = true → env.answers.users = .notModified →
    s.c.users = seenUsers o env.answers s.lastUsers
  /-- a config with the digest of the one before is the one before -/
  nodeHash : ∀ node, nodeAnswer o env.answers = .ok node → digestNode H node = s.c.nodeHash →
    s.c.node.map NodeInfo.digested = some node.digested
  /-- active users with the digest of those before are those before -/
  userHash : digestUsers H (s.active o env) = s.c.userHash → s.active o env = s.c.activeUsers
  /-- a canceled context stays canceled -/
  canceled : s.canceled = true → ∃ message, nodeAnswer o env.answers = .error (requestError message true)

def syncSystem (H : Host) (o : NodeOptions) : System (SyncRun H) (SyncEnv H) :=
  .ofStep SyncRun.New (SyncRun.step o)

/-! ## The requests -/

abbrev SyncEnv.UsersFail (env : SyncEnv H) : Prop := ∃ message canceled, env.answers.users = .error message canceled

/-- The user list that `sync` goes on with, if there is a new one. -/
abbrev SyncEnv.newUsers (env : SyncEnv H) (users : Option (List UserInfo)) : Option (List UserInfo) :=
  users.orElse fun _ => (userAnswer env.answers).toOption

/-- `c'` works on the same users as `c`, with the same in place. -/
structure Controller.SameWork (c c' : Controller H) : Prop where
  manager : c'.manager = c.manager
  tracker : c'.tracker = c.tracker
  current : c'.current = c.current
  inboundReady : c'.inboundReady = c.inboundReady
  pendingBuild : c'.pendingBuild = c.pendingBuild
  closed : c'.closed = c.closed
  users : c'.users = c.users
  activeUsers : c'.activeUsers = c.activeUsers
  userHash : c'.userHash = c.userHash

theorem Controller.SameWork.inPlace {c c' : Controller H} (h : c.SameWork c') {node : NodeInfo H.Settings}
    {users : List UserInfo} (hplace : c.InPlace o node users) : c'.InPlace o node users :=
  hplace.congr o h.manager (.inl h.tracker)

variable {env : SyncEnv H} {s : SyncRun H}

theorem run_syncNode_ok {node : NodeInfo H.Settings} (h : nodeAnswer o env.answers = .ok node) (c : Controller H) :
    ∃ c', (syncNode o env).run c = (.ok (decide (digestNode H node ≠ c.nodeHash), none), c') ∧ c.SameWork c' ∧
      c'.node = some node := by
  unfold syncNode loadNode
  simp only [run_bind, run_atomic, getNodeInfo_fst, h, run_modify, run_pure]
  exact ⟨_, rfl, ⟨rfl, rfl, rfl, rfl, rfl, rfl, rfl, rfl, rfl⟩, rfl⟩

theorem run_syncNode_error {err : GoError} (h : nodeAnswer o env.answers = .error err) (c : Controller H) :
    ∃ c', (syncNode o env).run c = (if err.is .notModified then .ok (false, none)
          else if err.is .emptyUserList then .ok (false, some []) else .error (.err err), c') ∧
      c.SameWork c' ∧ c'.node = c.node := by
  unfold syncNode
  simp only [run_bind, run_atomic, getNodeInfo_fst, h]
  refine ⟨{ c with client := (c.client.getNodeInfo o env.answers).2 }, ?_,
    ⟨rfl, rfl, rfl, rfl, rfl, rfl, rfl, rfl, rfl⟩, rfl⟩
  split
  · rfl
  · split <;> rfl

variable {users : Option (List UserInfo)}

/-- The list is there already, or comes with the answer, or is the old one. -/
theorem run_syncUsers_ok (h : users = none → ¬env.UsersFail) (c : Controller H) : ∃ c', (syncUsers env users).run c =
        (.ok (env.newUsers users), c') ∧ c.SameWork c' ∧ c'.node = c.node := by
  cases users with
  | some users => exact ⟨c, rfl, ⟨rfl, rfl, rfl, rfl, rfl, rfl, rfl, rfl, rfl⟩, rfl⟩
  | none =>
    unfold syncUsers
    refine ⟨{ c with client := (c.client.getUserList env.answers).2 }, ?_,
      ⟨rfl, rfl, rfl, rfl, rfl, rfl, rfl, rfl, rfl⟩, rfl⟩
    unfold SyncEnv.newUsers userAnswer Client.getUserList
    cases husers : env.answers.users with
    | ok users etag => rfl
    | notModified => rfl
    | error message canceled => exact absurd ⟨message, canceled, husers⟩ (h rfl)

/-- The request fails: what is in place counts as running only if it is an
inbound. -/
theorem run_syncUsers_error {message : String} {canceled : Bool}
    (h : env.answers.users = .error message canceled) {c : Controller H} (hopen : c.closed = false) :
    ∃ c', (syncUsers env none).run c = (.error (.err (requestError message canceled)), c') ∧ c'.node = c.node ∧
      c'.closed = false ∧ c'.users = c.users ∧
      (c'.inboundReady = true → c.SameWork c' ∧ c.inboundReady = true ∧ c.current.type ≠ "") := by
  have hanswer : userAnswer env.answers = .error (requestError message canceled) := by
    unfold userAnswer Client.getUserList
    rw [h]
  have hkind : (requestError message canceled).is .notModified = false := by
    cases canceled <;> rfl
  have hreport := triple_reportUnavailableStatusBestEffort
    (Q := fun c' => c'.node = c.node ∧ c'.closed = false ∧ c'.users = c.users ∧
      (c'.inboundReady = true → c.SameWork c' ∧ c.inboundReady = true ∧ c.current.type ≠ ""))
    ?_ ?_ ?_ { c with client := (c.client.getUserList env.answers).2 } rfl
  · refine ⟨_, ?_, hreport⟩
    unfold syncUsers
    simp [getUserList_fst, hanswer, hkind]
  · rintro c' reports ⟨hnode, hclosed, husers, hready⟩
    refine ⟨hnode, hclosed, husers, fun h => ⟨?_, (hready h).2⟩⟩
    exact { (hready h).1 with }
  · rintro c' rfl hkeep
    refine ⟨rfl, hopen, rfl, fun _ => ⟨⟨rfl, rfl, rfl, rfl, rfl, rfl, rfl, rfl, rfl⟩, ?_⟩⟩
    exact hkeep.resolve_left fun hclosed => Bool.noConfusion (hopen.symm.trans hclosed)
  · rintro c' rfl
    exact ⟨rfl, hopen, rfl, fun hready => nomatch hready⟩

theorem run_syncAlive (env : SyncEnv H) (c : Controller H) :
    (∃ err, err.is .canceled = true ∧ (syncAlive o env).run c = (some (.err err), c)) ∨
      ∃ c', (syncAlive o env).run c = (none, c') ∧ c'.plan = c.plan ∧ c'.inboundReady = c.inboundReady ∧
        ∀ node users, c.InPlace o node users → c'.InPlace o node users := by
  unfold syncAlive
  cases getAliveList o env.answers with
  | error err =>
    cases hcanceled : err.is .canceled with
    | true => exact .inl ⟨err, hcanceled, by simp [hcanceled]⟩
    | false => exact .inr ⟨c, by simp [hcanceled], rfl, rfl, fun _ _ h => h⟩
  | ok alive =>
    cases hready : c.inboundReady with
    | true =>
      simp only [run_bind, run_modify, run_read, run_pure, hready, if_true]
      exact .inr ⟨_, rfl, rfl, rfl, fun _ _ h => h.congr o rfl (.inr ⟨_, _, _, rfl⟩)⟩
    | false =>
      simp only [run_bind, run_modify, run_read, run_pure, hready, false_eq_true, if_false]
      exact .inr ⟨_, rfl, rfl, rfl, fun _ _ h => h.congr o rfl (.inl rfl)⟩

/-! ## The build -/

/-- What the end of a `sync` leaves: an error, and a build that is due; or the
config and the active users in place. -/
theorem syncBuild_settles (hH : H.Lawful) (hgone : H.InvalidGone) (env : SyncEnv H) (c : Controller H)
    (nodeChanged usersChanged newUsers : Bool)
    (hplace : ∀ node, c.node = some node → nodeChanged = false → usersChanged = false → c.inboundReady = true →
      c.pendingBuild = false → c.InPlace o node c.activeUsers) :
    let r := (syncBuild o env nodeChanged usersChanged newUsers).run c
    r.2.node = c.node ∧ r.2.closed = c.closed ∧ r.2.users = c.users ∧ r.2.activeUsers = c.activeUsers ∧
      ∀ node, c.node = some node →
        (r.1 = none ∨ r.2.pendingBuild = false) → r.2.InPlace o node c.activeUsers := by
  unfold syncBuild
  simp only [run_bind, run_read, id]
  cases hnode : c.node with
  | none =>
    by_cases hclear : (newUsers && c.activeUsers == []) = true
    · simp only [hclear, if_true]
      have hsame := samePlan (placed_clearInbound o hH hgone env {} c c rfl).1
      exact ⟨hsame.node.trans hnode, hsame.closed, hsame.users, hsame.activeUsers, fun node h => nomatch h⟩
    · simp only [hclear, false_eq_true, if_false]
      exact ⟨hnode, rfl, rfl, rfl, fun node h => nomatch h⟩
  | some node =>
    by_cases hskip : (!nodeChanged && !usersChanged && c.inboundReady && !c.pendingBuild) = true
    · simp only [hskip, if_true]
      simp only [and_eq_true, not_eq_true'] at hskip
      obtain ⟨⟨⟨hnodeChanged, husersChanged⟩, hready⟩, hpending⟩ := hskip
      refine ⟨hnode, rfl, rfl, rfl, ?_⟩
      rintro _ ⟨⟩ -
      exact hplace node hnode hnodeChanged husersChanged hready hpending
    · simp only [hskip, false_eq_true, if_false, run_bind, run_modify]
      obtain ⟨hplan, hbuilt⟩ := placed_rebuildInbound o hH hgone env node { c with pendingBuild := true }
        { c with pendingBuild := true } rfl
      generalize (rebuildInbound o env node).run { c with pendingBuild := true } = r at hplan hbuilt
      obtain ⟨err, c'⟩ := r
      have hsame := samePlan hplan
      cases err with
      | some err =>
        -- the build is still due
        refine ⟨hsame.node.trans hnode, hsame.closed, hsame.users, hsame.activeUsers, ?_⟩
        rintro _ ⟨⟩ (h | h)
        · cases h
        · exact Bool.noConfusion (hsame.pendingBuild.symm.trans h)
      | none =>
        refine ⟨hsame.node.trans hnode, hsame.closed, hsame.users, hsame.activeUsers, ?_⟩
        rintro _ ⟨⟩ -
        exact (hbuilt rfl).congr o rfl (.inl rfl)

/-- `sync` after its first request: the user request fails, and a changed config
is not yet in place only if a build is due or nothing is running; or the rest of
`sync` notices what has changed. -/
theorem syncRest_settles (hH : H.Lawful) (hgone : H.InvalidGone) (env : SyncEnv H) (c : Controller H)
    (nodeChanged : Bool) (users : Option (List UserInfo)) (active : List UserInfo) (hopen : c.closed = false)
    (hplace : ∀ node, c.node = some node → nodeChanged = false → c.inboundReady = true → c.pendingBuild = false →
      c.InPlace o node c.activeUsers)
    (hfail : nodeChanged = true → users = none → env.UsersFail →
      ¬(c.inboundReady = true ∧ c.current.type ≠ "" ∧ c.pendingBuild = false))
    (hactive : (users = none → ¬env.UsersFail) →
      activePanelUsers H ((env.newUsers users).getD c.users) env.now = active)
    (hhash : digestUsers H active = c.userHash → active = c.activeUsers) :
    let r := (syncRest o env nodeChanged users).run c
    r.2.closed = false ∧ r.2.node = c.node ∧
      r.2.users = (env.newUsers users).getD c.users ∧
      (r.1.any SyncError.canceled = false → ∀ node, c.node = some node → r.2.inboundReady = true →
        r.2.pendingBuild = false → r.2.InPlace o node r.2.activeUsers) ∧
      (r.1 = none → ∀ node, c.node = some node → r.2.InPlace o node active) := by
  unfold syncRest
  by_cases herror : users = none ∧ env.UsersFail
  · obtain ⟨rfl, message, canceled, herror⟩ := herror
    obtain ⟨c', hrun, hnode, hclosed, husers, hkept⟩ := run_syncUsers_error herror hopen
    simp only [run_bind, hrun, run_pure]
    refine ⟨hclosed, hnode, ?_, ?_, fun h => nomatch h⟩
    · rw [husers]
      unfold SyncEnv.newUsers userAnswer Client.getUserList
      rw [herror]
      rfl
    intro _ node hc hready hpending
    obtain ⟨hsame, hrunning⟩ := hkept hready
    have hpending' : c.pendingBuild = false := hsame.pendingBuild.symm.trans hpending
    cases nodeChanged with
    | true => exact absurd ⟨hrunning.1, hrunning.2, hpending'⟩ (hfail rfl rfl ⟨message, canceled, herror⟩)
    | false =>
      rw [hsame.activeUsers]
      exact hsame.inPlace o (hplace node hc rfl hrunning.1 hpending')
  · have hanswered : users = none → ¬env.UsersFail := fun hnone hfails => herror ⟨hnone, hfails⟩
    obtain ⟨c₂, hrun, hsame, hnode⟩ := run_syncUsers_ok hanswered c
    have hload : ∃ c₃, c₂.loadUsers env (env.newUsers users) =
        (decide (digestUsers H active ≠ c.userHash), c₃) ∧ c₃.activeUsers = active ∧ c₃.node = c.node ∧
        c₃.users = (env.newUsers users).getD c.users ∧ c₃.closed = false ∧ c₃.inboundReady = c.inboundReady ∧
        c₃.pendingBuild = c.pendingBuild ∧
        ∀ node users, c.InPlace o node users → c₃.InPlace o node users := by
      simp only [Controller.loadUsers, hsame.users, hactive hanswered, hsame.userHash]
      exact ⟨_, rfl, rfl, hnode, rfl, hsame.closed.trans hopen, hsame.inboundReady, hsame.pendingBuild,
        fun _ _ h => (hsame.inPlace o h).congr o rfl (.inl rfl)⟩
    obtain ⟨c₃, hload, hactive₃, hnode₃, husers₃, hopen₃, hready₃, hpending₃, hplace₃⟩ := hload
    simp only [run_bind, hrun, run_atomic, hload]
    rcases run_syncAlive o env c₃ with ⟨err, hcanceled, halive⟩ | ⟨c₄, halive, hplan₄, hready₄, hplace₄⟩
    · -- a canceled request ends the runs that matter
      simp only [halive, run_pure]
      refine ⟨hopen₃, hnode₃, husers₃, fun h => ?_, fun h => nomatch h⟩
      simp [SyncError.canceled, hcanceled] at h
    · simp only [halive]
      have hsame₄ := samePlan hplan₄
      have hsettled₄ : ∀ node, c₄.node = some node → nodeChanged = false →
          decide (digestUsers H active ≠ c.userHash) = false → c₄.inboundReady = true → c₄.pendingBuild = false →
          c₄.InPlace o node c₄.activeUsers := by
        intro node hc hnodeChanged husersChanged hready hpending
        have hsameUsers : active = c.activeUsers := hhash (by simpa using husersChanged)
        rw [hsame₄.activeUsers, hactive₃, hsameUsers]
        refine hplace₄ _ _ (hplace₃ _ _ (hplace node ?_ hnodeChanged ?_ ?_))
        · exact (hsame₄.node.trans hnode₃).symm.trans hc
        · exact (hready₄.trans hready₃).symm.trans hready
        · exact (hsame₄.pendingBuild.trans hpending₃).symm.trans hpending
      obtain ⟨hnode', hclosed', husers', hactive', hsettled⟩ := syncBuild_settles o hH hgone env c₄ nodeChanged
        (decide (digestUsers H active ≠ c.userHash))
        (env.newUsers users).isSome hsettled₄
      rw [hsame₄.activeUsers, hactive₃] at hactive' hsettled
      rw [hsame₄.node, hnode₃] at hnode' hsettled
      refine ⟨hclosed'.trans (hsame₄.closed.trans hopen₃), hnode', husers'.trans (hsame₄.users.trans husers₃), ?_,
        fun h node hc => hsettled node hc (.inl h)⟩
      intro _ node hc _ hpending
      rw [hactive']
      exact hsettled node hc (.inr hpending)

/-! ## Every run -/

theorem seenUsers_of_empty {a : PanelAnswers H} {err : GoError} (h : nodeAnswer o a = .error err)
    (hempty : err.is .emptyUserList = true) (before : List UserInfo) : seenUsers o a before = [] := by
  have hrequest : ∀ message canceled, (requestError message canceled).is .emptyUserList = false := by
    intro message canceled
    cases canceled <;> rfl
  unfold nodeAnswer Client.getNodeInfo Client.getServerConfig at h
  by_cases hstyle : o.apiStyle = apiStyleShadowsocksTidalab
  · simp only [if_pos hstyle] at h
    unfold getShadowsocksTidalabServerConfig at h
    unfold seenUsers
    rw [if_pos hstyle]
    cases husers : a.configUsers with
    | ok users etag =>
      cases users with
      | nil => rfl
      | cons first rest =>
        rw [husers] at h
        cases h
    | notModified =>
      rw [husers] at h
      cases h
      cases hempty
    | error message canceled =>
      rw [husers] at h
      cases h
      rw [hrequest] at hempty
      cases hempty
  · simp only [if_neg hstyle] at h
    cases hconfig : a.config with
    | ok config etag =>
      rw [hconfig] at h
      cases h
    | notModified =>
      rw [hconfig] at h
      cases h
      cases hempty
    | error message canceled =>
      rw [hconfig] at h
      cases h
      rw [hrequest] at hempty
      cases hempty

structure SyncRun.Inv (s : SyncRun H) : Prop where
  closed : s.c.closed = false
  node : s.c.node = s.lastNode
  users : o.apiStyle ≠ apiStyleShadowsocksTidalab → s.c.users = s.lastUsers
  /-- what counts as built is in place -/
  settled : s.canceled = false → ∀ node, s.c.node = some node → s.c.inboundReady = true → s.c.pendingBuild = false →
    s.c.InPlace o node s.c.activeUsers

theorem seenUsers_of_ne (hstyle : o.apiStyle ≠ apiStyleShadowsocksTidalab) (a : PanelAnswers H)
    (before : List UserInfo) : seenUsers o a before = before := by
  unfold seenUsers
  rw [if_neg hstyle]

/-- In the other styles, a user request that returns no list leaves the one
before. -/
theorem lastUsers_of_ne (hstyle : o.apiStyle ≠ apiStyleShadowsocksTidalab) {a : PanelAnswers H}
    (hasks : asksUsers o a = true) (before : List UserInfo) :
    (userAnswer a).toOption.getD before = lastUsers o a before := by
  unfold lastUsers
  rw [if_pos hasks, seenUsers_of_ne o hstyle]
  cases userAnswer a <;> rfl

theorem getD_users (hs : s.Inv o) (hok : s.Remembers o env) (hasks : asksUsers o env.answers = true)
    (hanswered : ¬env.UsersFail) :
    (userAnswer env.answers).toOption.getD s.c.users = lastUsers o env.answers s.lastUsers := by
  by_cases hstyle : o.apiStyle = apiStyleShadowsocksTidalab
  · have hnotModified := hok.notModified hstyle hasks
    unfold lastUsers
    rw [if_pos hasks]
    unfold userAnswer Client.getUserList
    cases husers : env.answers.users with
    | ok users etag => rfl
    | notModified => exact hnotModified husers
    | error message canceled => exact absurd ⟨message, canceled, husers⟩ hanswered
  · rw [hs.users hstyle]
    exact lastUsers_of_ne o hstyle hasks s.lastUsers

theorem step_of_rest (hH : H.Lawful) (hgone : H.InvalidGone) (hs : s.Inv o)
    (hok : s.Remembers o env) {nodeChanged : Bool} {c₁ : Controller H}
    (hrun : (syncNode o env).run s.c = (.ok (nodeChanged, users), c₁)) (hsame : s.c.SameWork c₁)
    (hnode : c₁.node = (s.step o env).lastNode)
    (hplace : ∀ node, c₁.node = some node → nodeChanged = false → s.c.inboundReady = true → s.c.pendingBuild = false →
      s.c.InPlace o node s.c.activeUsers) (hfail : nodeChanged = true → env.UsersFail →
      ¬(s.c.inboundReady = true ∧ s.c.current.type ≠ "" ∧ s.c.pendingBuild = false))
    (hlist : (users = none → ¬env.UsersFail) → (env.newUsers users).getD s.c.users =
        lastUsers o env.answers s.lastUsers) (hlist' : o.apiStyle ≠ apiStyleShadowsocksTidalab →
      (env.newUsers users).getD s.lastUsers = lastUsers o env.answers s.lastUsers) :
    (s.step o env).Inv o ∧ (((sync o env).run s.c).1 = none → ∀ node, (s.step o env).lastNode = some node →
      (s.step o env).c.InPlace o node (s.active o env)) := by
  have hsync : (sync o env).run s.c = (syncRest o env nodeChanged users).run c₁ := by
    unfold sync
    simp [hrun]
  have hc : (s.step o env).c = ((syncRest o env nodeChanged users).run c₁).2 := congrArg Prod.snd hsync
  obtain ⟨hclosed, hnode', husers, hsettled, hnil⟩ := syncRest_settles o hH hgone env c₁ nodeChanged users
    (s.active o env) (hsame.closed.trans hs.closed)
    (fun node hn hchanged hready hpending => by
      rw [hsame.activeUsers]
      exact hsame.inPlace o (hplace node hn hchanged (hsame.inboundReady.symm.trans hready)
        (hsame.pendingBuild.symm.trans hpending)))
    (fun hchanged _ herror => by
      rw [hsame.inboundReady, hsame.current, hsame.pendingBuild]
      exact hfail hchanged herror)
    (fun hanswered => by
      rw [hsame.users, hlist hanswered]
      rfl)
    (fun hdigest => by
      rw [hsame.userHash] at hdigest
      exact (hok.userHash hdigest).trans hsame.activeUsers.symm)
  refine ⟨⟨?_, ?_, ?_, ?_⟩, ?_⟩
  · rw [hc]
    exact hclosed
  · rw [hc, hnode']
    exact hnode
  · intro hstyle
    rw [hc, husers, hsame.users, hs.users hstyle]
    exact hlist' hstyle
  · intro hcanceled node hn hready hpending
    have hcanceled' : ((sync o env).run s.c).1.any SyncError.canceled = false := (or_eq_false_iff.1 hcanceled).2
    rw [hsync] at hcanceled'
    rw [hc] at hn hready hpending ⊢
    exact hsettled hcanceled' node (hnode'.symm.trans hn) hready hpending
  · intro hresult node hn
    rw [hsync] at hresult
    rw [hc]
    exact hnil hresult node (hnode.trans hn)

/-- One step keeps the invariant, and has everything in place if it ends without
an error. -/
theorem step_settles (hH : H.Lawful) (hgone : H.InvalidGone) (hs : s.Inv o) (hok : s.Remembers o env) :
    (s.step o env).Inv o ∧ (((sync o env).run s.c).1 = none → ∀ node, (s.step o env).lastNode = some node →
      (s.step o env).c.InPlace o node (s.active o env)) := by
  cases hanswer : nodeAnswer o env.answers with
  | ok node =>
    have hlive : s.canceled = false := by
      cases hcanceled : s.canceled with
      | false => rfl
      | true =>
        obtain ⟨message, hmessage⟩ := hok.canceled hcanceled
        rw [hanswer] at hmessage
        cases hmessage
    have hasks : asksUsers o env.answers = true := by
      unfold asksUsers
      rw [hanswer]
    have hlast : (s.step o env).lastNode = some node := by
      simp only [SyncRun.step, hanswer]
    obtain ⟨c₁, hrun, hsame, hnode⟩ := run_syncNode_ok o hanswer s.c
    refine step_of_rest o hH hgone hs hok hrun hsame (hnode.trans hlast.symm) ?_ ?_ ?_
      fun hstyle => lastUsers_of_ne o hstyle hasks s.lastUsers
    · -- the config is the one before, as far as the digest goes
      intro node' hn hchanged hready hpending
      cases hnode.symm.trans hn
      obtain ⟨before, hbefore, hdigested⟩ :=
        Option.map_eq_some_iff.1 (hok.nodeHash node hanswer (by simpa using hchanged))
      exact (hs.settled hlive before hbefore hready hpending).digested o hdigested.symm
    · intro hchanged herror
      exact hok.users node hanswer (by simpa using hchanged) herror
    · intro hanswered
      exact getD_users o hs hok hasks (hanswered rfl)
  | error err =>
    have hlast : (s.step o env).lastNode = s.lastNode := by
      simp only [SyncRun.step, hanswer]
    obtain ⟨c₁, hrun, hsame, hnode⟩ := run_syncNode_error o hanswer s.c
    have hnode' : c₁.node = (s.step o env).lastNode := hnode.trans (hs.node.trans hlast.symm)
    have hasks : asksUsers o env.answers = err.is .notModified := by
      unfold asksUsers
      rw [hanswer]
    by_cases hgoes : err.is .notModified = true ∨ err.is .emptyUserList = true
    · -- the node is the one before
      have hlive : s.canceled = false := by
        cases hcanceled : s.canceled with
        | false => rfl
        | true =>
          obtain ⟨message, hmessage⟩ := hok.canceled hcanceled
          rw [hanswer] at hmessage
          cases hmessage
          rcases hgoes with h | h <;> cases h
      have hplace : ∀ node, c₁.node = some node → false = false → s.c.inboundReady = true →
          s.c.pendingBuild = false → s.c.InPlace o node s.c.activeUsers :=
        fun node hn _ => hs.settled hlive node (hnode.symm.trans hn)
      by_cases hmodified : err.is .notModified = true
      · rw [if_pos hmodified] at hrun
        rw [hmodified] at hasks
        exact step_of_rest o hH hgone hs hok hrun hsame hnode' hplace (fun h => nomatch h)
          (fun hanswered => getD_users o hs hok hasks (hanswered rfl))
          fun hstyle => lastUsers_of_ne o hstyle hasks s.lastUsers
      · have hempty := hgoes.resolve_left hmodified
        rw [if_neg hmodified, if_pos hempty] at hrun
        have hlist : [] = lastUsers o env.answers s.lastUsers := by
          unfold lastUsers
          rw [hasks, if_neg hmodified, seenUsers_of_empty o hanswer hempty]
        exact step_of_rest o hH hgone hs hok hrun hsame hnode' hplace (fun h => nomatch h) (fun _ => hlist)
          fun _ => hlist
    · obtain ⟨hmodified, hempty⟩ := not_or.1 hgoes
      rw [if_neg hmodified, if_neg hempty] at hrun
      have hsync : (sync o env).run s.c = (some (.err err), c₁) := by
        unfold sync
        simp [hrun]
      have hc : (s.step o env).c = c₁ := congrArg Prod.snd hsync
      refine ⟨⟨?_, ?_, ?_, ?_⟩, ?_⟩
      · rw [hc]
        exact hsame.closed.trans hs.closed
      · rw [hc]
        exact hnode'
      · intro hstyle
        rw [hc, hsame.users, hs.users hstyle]
        simp only [SyncRun.step, lastUsers, hasks, if_neg hmodified, seenUsers_of_ne o hstyle]
      · intro hcanceled node hn hready hpending
        have hlive : s.canceled = false := (or_eq_false_iff.1 hcanceled).1
        rw [hc] at hn hready hpending ⊢
        rw [hsame.activeUsers]
        exact hsame.inPlace o (hs.settled hlive node (hnode.symm.trans hn) (hsame.inboundReady.symm.trans hready)
          (hsame.pendingBuild.symm.trans hpending))
      · intro hresult
        rw [hsync] at hresult
        cases hresult

/-- In every run whose steps forget nothing, a `sync` that ends without an error
while a config is loaded has the last config and the active users of the last
list in place. -/
theorem sync_in_place (H : Host) (hH : H.Lawful) (hgone : H.InvalidGone) (o : NodeOptions) (s : SyncRun H)
    (hs : Reach (syncSystem H o) (SyncRun.Remembers o) s) (env : SyncEnv H) (hok : s.Remembers o env)
    (hnil : ((sync o env).run s.c).1 = none) (node : NodeInfo H.Settings)
    (hnode : (s.step o env).lastNode = some node) :
    (s.step o env).c.InPlace o node (activePanelUsers H (s.step o env).lastUsers env.now) := by
  have hinv : s.Inv o := by
    refine Reach.inv (SyncRun.Inv o) ?_ ?_ hs
    · intro s hnew
      refine ⟨hnew.closed, hnew.node.trans hnew.lastNode.symm, fun _ => hnew.users.trans hnew.lastUsers.symm, ?_⟩
      intro _ node hnode
      rw [hnew.node] at hnode
      cases hnode
    · rintro s env _ hs hok rfl
      exact (step_settles o hH hgone hs hok).1
  exact (step_settles o hH hgone hinv hok).2 hnil node hnode

theorem invalidGone_withManager (H : Host) (tag : String) : (H.withManager tag).InvalidGone :=
  fun m outcome _ _ _ => removeDeletes_withManager H tag m outcome

def sampleStart : SyncRun (sampleHost.withManager "node") := { c := sampleOpen }

def sampleTrojan : ServerConfig Unit := { protocol := "trojan", serverPort := 443, settings := () }

/-- A sync that finds it, with some answer to the user request. -/
def sampleChange (users : Answer (List UserInfo)) : SyncEnv (sampleHost.withManager "node") :=
  { sampleSync with answers := { sampleSync.answers with config := .ok sampleTrojan "d", users := users } }

theorem reach_sampleStart (ok : SyncRun (sampleHost.withManager "node") → SyncEnv (sampleHost.withManager "node") → Prop) :
    Reach (syncSystem (sampleHost.withManager "node") sampleOptions) ok sampleStart :=
  .init ⟨rfl, rfl, rfl, rfl, rfl⟩

theorem sync_in_place_sample :
    ((sync sampleOptions (sampleChange .notModified)).run (sampleStart.step sampleOptions sampleSync).c).1 = none ∧
      ((sampleStart.step sampleOptions sampleSync).step sampleOptions (sampleChange .notModified)).c.InPlace sampleOptions
        (nodeInfo sampleOptions sampleTrojan) [{ id := 7, uuid := "u" }] := by
  have hfirst : sampleStart.Remembers sampleOptions sampleSync := by
    refine ⟨?_, ?_, ?_, ?_, ?_⟩
    · rintro node - - ⟨message, canceled, h⟩
      cases h
    · intro _ _ h
      cases h
    · rintro _ ⟨⟩ h
      exact absurd h (by decide)
    · intro h
      exact absurd h (by decide)
    · intro h
      cases h
  have hsecond : (sampleStart.step sampleOptions sampleSync).Remembers sampleOptions (sampleChange .notModified) := by
    refine ⟨?_, ?_, ?_, ?_, ?_⟩
    · rintro node - - ⟨message, canceled, h⟩
      cases h
    · intro _ _ _
      rfl
    · rintro _ ⟨⟩ h
      exact absurd h (by decide)
    · intro _
      rfl
    · intro h
      cases h
  exact ⟨rfl, sync_in_place _ (lawful_withManager sampleHost "node") (invalidGone_withManager sampleHost "node")
    sampleOptions _ (.step (reach_sampleStart _) hfirst rfl) _ hsecond rfl _ rfl⟩

/-- The user request fails after the new config has come in. -/
def sampleForgetful : SyncRun (sampleHost.withManager "node") :=
  (sampleStart.step sampleOptions sampleSync).step sampleOptions (sampleChange (.error "timeout" false))

def sampleUnchanged : SyncEnv (sampleHost.withManager "node") :=
  { sampleSync with answers := { sampleSync.answers with config := .notModified, users := .notModified } }

/-- Then the next `sync` ends without an error, and what runs is still the old
config. -/
theorem sync_forgets_config :
    Reach (syncSystem (sampleHost.withManager "node") sampleOptions) (fun _ _ => True) sampleForgetful ∧
      ((sync sampleOptions sampleUnchanged).run sampleForgetful.c).1 = none ∧
      (sampleForgetful.step sampleOptions sampleUnchanged).lastNode = some (nodeInfo sampleOptions sampleTrojan) ∧
      ¬(sampleForgetful.step sampleOptions sampleUnchanged).c.InPlace sampleOptions (nodeInfo sampleOptions sampleTrojan)
        (activePanelUsers (sampleHost.withManager "node") (sampleForgetful.step sampleOptions sampleUnchanged).lastUsers
          sampleUnchanged.now) := by
  have hactive : activePanelUsers (sampleHost.withManager "node")
      (sampleForgetful.step sampleOptions sampleUnchanged).lastUsers sampleUnchanged.now =
        [{ id := 7, uuid := "u" }] := rfl
  have hentry : (sampleHost.withManager "node").get (sampleForgetful.step sampleOptions sampleUnchanged).c.manager =
      some ("vless", some ["u"]) := rfl
  have htrojan : ∀ brutal inbound, buildInbound (sampleHost.withManager "node") brutal sampleOptions
      (nodeInfo sampleOptions sampleTrojan) [{ id := 7, uuid := "u" }] = .ok inbound → inbound.type = "trojan" := by
    intro brutal inbound h
    cases h
    rfl
  refine ⟨.step (.step (reach_sampleStart _) trivial rfl) trivial rfl, rfl, rfl, ?_⟩
  rw [hactive]
  rintro ⟨n, nodeType, -, -, -, hplace⟩
  obtain ⟨brutal, inbound, hbuilt, -, hget⟩ := hplace
  rw [htrojan brutal inbound hbuilt] at hget
  have htype : "vless" = "trojan" := congrArg Prod.fst (Option.some.inj hget)
  exact absurd htype (by decide)

end Singlink.V2Board
