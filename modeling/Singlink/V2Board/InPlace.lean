import Singlink.V2Board.DeviceLimit
import Singlink.V2Board.Status
/-!
# A config in place

What it means that a config and a list of users are in place: the inbound built
from them is registered, and the tracker's node has the users and the block
rules. A rebuild that ends without an error puts them in place.
-/

namespace Singlink.V2Board

open Lib Prog

/-! ## The users of a node -/

variable {R : Type}

/-- The user a key stands for: the last one of the list that has it. -/
def trackedUser (nodeType : String) (users : List UserInfo) (key : String) : Option UserInfo :=
  if key = "" then none else (users.filter fun user => userTrackerKey nodeType user = key).getLast?

/-- What the tracker enforces for a user: the user ID it counts for, and the
limits. -/
def UserInfo.tracked (user : UserInfo) : Int × Int64 × Int64 := (user.id.toInt, user.speedLimit, user.deviceLimit)

def NodeTraffic.entry (n : NodeTraffic R) (key : String) : Option (Int × Int64 × Int64) :=
  (n.users.lookup key).map fun uid => (uid, (n.limits.get key {}).speed, (n.limits.get key {}).device)

/-- A node has the users of a list, and no others. -/
def NodeTraffic.Holds (n : NodeTraffic R) (nodeType : String) (users : List UserInfo) : Prop :=
  ∀ key, n.entry key = (trackedUser nodeType users key).map UserInfo.tracked

theorem updatedUserLimit_speed (n : NodeTraffic R) (ref : Nat) (key : String) (user : UserInfo) :
    (n.updatedUserLimit ref key user).speed = user.speedLimit := by
  unfold NodeTraffic.updatedUserLimit
  split
  · rfl
  · simp only
    split <;> rfl

theorem limits_updateUser (n : NodeTraffic R) {nodeType key : String} (acc : NextUsers) {user : UserInfo} (hne : key ≠ "")
    (hkey : userTrackerKey nodeType user = key) :
    ((n.updateUser nodeType acc user).limits.get key {}).speed = user.speedLimit ∧
      ((n.updateUser nodeType acc user).limits.get key {}).device = user.deviceLimit := by
  unfold NodeTraffic.updateUser
  simp [hkey, hne, GoMap.get_insert, (carryCounter_rest n _ _ _).2.1, updatedUserLimit_speed, updatedUserLimit_device]

theorem holds_updateUsers (n : NodeTraffic R) (a : UpdateArgs R) : (n.updateUsers a).Holds a.nodeType a.users := by
  intro key
  refine nextUsers_rule n a key (P := fun last acc => (acc.users.lookup key).map (fun uid =>
    (uid, (acc.limits.get key {}).speed, (acc.limits.get key {}).device)) = last.map UserInfo.tracked) ?_ ?_ ?_
  · intro last acc acc' hsame h
    rw [hsame.users, hsame.limits]
    exact h
  · intro last acc user _ hne hkey _
    obtain ⟨hspeed, hdevice⟩ := limits_updateUser n acc hne hkey
    rw [users_updateUser n acc hne hkey, hspeed, hdevice]
    rfl
  · exact fun _ _ _ => rfl

/-! ## In place -/

variable {H : Host} (o : NodeOptions)

/-- The registered inbound is the one built from the config and the users, none
if there are no users, and the tracker's node has the users and the rules. -/
def Controller.InPlace (c : Controller H) (node : NodeInfo H.Settings) (users : List UserInfo) : Prop :=
  ∃ n nodeType, c.tracker = some n ∧ n.Holds nodeType users ∧ buildNodeRules H.rules node.common.routes = .ok n.rules ∧
    if users = [] then H.get c.manager = none
    else ∃ brutal inbound, buildInbound H brutal o node users = .ok inbound ∧ inbound.type = nodeType ∧
      H.get c.manager = some (inbound.type, inbound.options)

variable {node : NodeInfo H.Settings} {users : List UserInfo} {c : Controller H} {node' : NodeInfo H.Settings}
  {inbound : Inbound H.Options}

/-- Configs with one digest are built into inbounds that differ at most in the
tag. -/
theorem buildInbound_digested (h : node'.digested = node.digested) {brutal : Option GoError}
    (hbuilt : buildInbound H brutal o node users = .ok inbound) :
    ∃ inbound', buildInbound H brutal o node' users = .ok inbound' ∧ inbound'.type = inbound.type ∧
      inbound'.options = inbound.options := by
  unfold buildInbound mapInbound at hbuilt ⊢
  rw [h]
  cases hoptions : inboundOptions H brutal node.digested users with
  | error err =>
    rw [hoptions] at hbuilt
    cases hbuilt
  | ok r =>
    rw [hoptions] at hbuilt
    cases hbuilt
    exact ⟨_, rfl, rfl, rfl⟩

/-- What is in place for a config is in place for one with the same digest. -/
theorem Controller.InPlace.digested
    (hplace : c.InPlace o node users) (h : node'.digested = node.digested) : c.InPlace o node' users := by
  obtain ⟨n, nodeType, htracker, hholds, hrules, hentry⟩ := hplace
  have hroutes : node'.common.routes = node.common.routes := congrArg (fun d : NodeDigest H.Settings => d.common.routes) h
  refine ⟨n, nodeType, htracker, hholds, by rw [hroutes]; exact hrules, ?_⟩
  split
  · rename_i hempty
    rw [if_pos hempty] at hentry
    exact hentry
  · rename_i hempty
    rw [if_neg hempty] at hentry
    obtain ⟨brutal, inbound, hbuilt, htype, hget⟩ := hentry
    obtain ⟨inbound', hbuilt', htype', hoptions'⟩ := buildInbound_digested o h hbuilt
    exact ⟨brutal, inbound', hbuilt', htype'.trans htype, by rw [htype', hoptions']; exact hget⟩

theorem Controller.InPlace.congr {c' : Controller H}
    (hplace : c.InPlace o node users) (hmanager : c'.manager = c.manager) (htracker : c'.tracker = c.tracker ∨
      ∃ alive aliveAt aliveTTL, c'.tracker = c.tracker.map (·.updateAliveList alive aliveAt aliveTTL)) :
    c'.InPlace o node users := by
  obtain ⟨n, nodeType, hn, hholds, hrules, hentry⟩ := hplace
  rcases htracker with htracker | ⟨alive, aliveAt, aliveTTL, htracker⟩
  · exact ⟨n, nodeType, htracker.trans hn, hholds, hrules, by rw [hmanager]; exact hentry⟩
  · refine ⟨n.updateAliveList alive aliveAt aliveTTL, nodeType, ?_, hholds, hrules, by rw [hmanager]; exact hentry⟩
    rw [htracker, hn]
    rfl

/-! ## Rebuilding -/

/-- The part of a controller a rebuild works from, and does not change. -/
def Controller.plan (c : Controller H) :
    Option (NodeInfo H.Settings) × List UserInfo × List UserInfo × Bool × Bool :=
  (c.node, c.users, c.activeUsers, c.closed, c.pendingBuild)

/-- What controllers of one plan have in common. -/
structure Controller.SamePlan (c c' : Controller H) : Prop where
  node : c'.node = c.node
  users : c'.users = c.users
  activeUsers : c'.activeUsers = c.activeUsers
  closed : c'.closed = c.closed
  pendingBuild : c'.pendingBuild = c.pendingBuild

theorem samePlan {c' : Controller H} (h : c'.plan = c.plan) : c.SamePlan c' := by
  simp only [Controller.plan, Prod.mk.injEq] at h
  obtain ⟨hnode, husers, hactive, hclosed, hpending⟩ := h
  exact ⟨hnode, husers, hactive, hclosed, hpending⟩

theorem placed_reportStatusIf {c₀ : Controller H} {Q : Controller H → Prop}
    (hQ : ∀ c reports, Q c → Q { c with reports := reports }) (due : Bool) :
    Triple (fun c => c.plan = c₀.plan ∧ Q c) (reportStatusIf due) fun _ c => c.plan = c₀.plan ∧ Q c :=
  triple_reportStatusIf (fun c reports hc => ⟨hc.1, hQ c reports hc.2⟩) due

/-- Clearing that ends without an error leaves neither an inbound nor users. -/
theorem placed_clearInbound (hH : H.Lawful) (hgone : H.InvalidGone) (env : SyncEnv H)
    (rules : NodeRules H.Regexp H.Pfx) (c₀ : Controller H) :
    Triple (fun c => c.plan = c₀.plan) (clearInbound o env rules) fun err c => c.plan = c₀.plan ∧ (err = none →
      H.get c.manager = none ∧ ∃ n nodeType, c.tracker = some n ∧ n.Holds nodeType [] ∧ n.rules = rules) := by
  refine .bind (Q := fun r c => c.plan = c₀.plan ∧ (r.1 = none →
      H.get c.manager = none ∧ ∃ n nodeType, c.tracker = some n ∧ n.Holds nodeType [] ∧ n.rules = rules))
    (.atomic fun c hc => ?_) fun r => ?_
  · have hcases := clearSection_cases o hH c env rules
    generalize c.clearSection o env rules = r at hcases
    cases hcases with
    | canceled _ | kept _ _ _ => exact ⟨hc, fun herr => nomatch herr⟩
    | cleared _ _ hget => exact ⟨hc, fun _ => ⟨hget hgone, _, _, rfl, holds_updateUsers _ _, rfl⟩⟩
  · refine .bind (placed_reportStatusIf ?_ r.2) fun _ => .pure fun c hc => hc
    exact fun c reports hc => hc

theorem placed_applyInbound (hH : H.Lawful) (env : SyncEnv H) (inbound : Inbound H.Options) (c₀ : Controller H) :
    Triple (fun c => c.plan = c₀.plan) (applyInbound env inbound) fun err c => c.plan = c₀.plan ∧
      (err = none → H.get c.manager = some (inbound.type, inbound.options)) := by
  refine .bind (Q := fun r c => c.plan = c₀.plan ∧
      (r.1 = none → H.get c.manager = some (inbound.type, inbound.options))) (.atomic fun c hc => ?_) fun r => ?_
  · have hcases := applySection_cases hH c env inbound
    generalize c.applySection env inbound = r at hcases
    cases hcases with
    | canceled _ | kept _ _ _ | failed _ | lost => exact ⟨hc, fun herr => nomatch herr⟩
    | applied _ hget => exact ⟨hc, fun _ => hget⟩
  · refine .bind (placed_reportStatusIf ?_ r.2) fun _ => .pure fun c hc => hc
    exact fun c reports hc => hc

theorem inPlace_commitSection (husers : c.activeUsers = users) (hne : users ≠ []) {env : SyncEnv H}
    {rules : NodeRules H.Regexp H.Pfx} (hrules : buildNodeRules H.rules node.common.routes = .ok rules)
    (hbuilt : buildInbound H env.brutal o node users = .ok inbound)
    (hget : H.get c.manager = some (inbound.type, inbound.options)) :
    (c.commitSection o env inbound rules).2.plan = c.plan ∧
      ((c.commitSection o env inbound rules).1 = none → (c.commitSection o env inbound rules).2.InPlace o node users) := by
  subst husers
  unfold Controller.commitSection
  split
  · exact ⟨rfl, fun herr => nomatch herr⟩
  · refine ⟨rfl, fun _ => ⟨_, _, rfl, holds_updateUsers _ _, hrules, ?_⟩⟩
    rw [if_neg hne]
    exact ⟨env.brutal, inbound, hbuilt, rfl, hget⟩

/-- A rebuild that ends without an error has put the config and the active users
in place. -/
theorem placed_rebuildInbound (hH : H.Lawful) (hgone : H.InvalidGone) (env : SyncEnv H) (node : NodeInfo H.Settings)
    (c₀ : Controller H) :
    Triple (fun c => c.plan = c₀.plan) (rebuildInbound o env node) fun err c =>
      c.plan = c₀.plan ∧ (err = none → c.InPlace o node c₀.activeUsers) := by
  have hunavailable : Triple (fun c : Controller H => c.plan = c₀.plan) reportUnavailableStatusBestEffort
      fun _ c => c.plan = c₀.plan :=
    triple_reportUnavailableStatusBestEffort (fun c reports hc => hc) (fun c hc _ => hc) fun c hc => hc
  unfold rebuildInbound
  split
  · exact .bind hunavailable fun _ => .pure fun c hc => ⟨hc, fun herr => nomatch herr⟩
  · rename_i rules hrules
    refine .bind (Q := fun users c => users = c₀.activeUsers ∧ c.plan = c₀.plan)
      (.read fun c hc => ⟨(samePlan hc).activeUsers, hc⟩) fun users => .given ?_
    rintro rfl
    split
    · rename_i hempty
      intro c hplan
      obtain ⟨hplan', hcleared⟩ := placed_clearInbound o hH hgone env rules c₀ c hplan
      refine ⟨hplan', fun herr => ?_⟩
      obtain ⟨hget, n, nodeType, htracker, hholds, hnrules⟩ := hcleared herr
      rw [hempty]
      refine ⟨n, nodeType, htracker, hholds, by rw [hnrules]; exact hrules, ?_⟩
      exact hget
    · rename_i hne
      split
      · exact .bind hunavailable fun _ => .pure fun c hc => ⟨hc, fun herr => nomatch herr⟩
      · rename_i inbound hbuilt
        refine .bind (placed_applyInbound hH env inbound c₀) fun applied => ?_
        cases applied with
        | some err => exact .pure fun c hc => ⟨hc.1, fun herr => nomatch herr⟩
        | none =>
          refine .bind (Q := fun err c => c.plan = c₀.plan ∧ (err = none → c.InPlace o node c₀.activeUsers))
            (.atomic fun c hc => ?_) fun committed => ?_
          · obtain ⟨hplan, hget⟩ := hc
            obtain ⟨hplan', hplace⟩ :=
              inPlace_commitSection o (samePlan hplan).activeUsers hne hrules hbuilt (hget rfl)
            exact ⟨hplan'.trans hplan, hplace⟩
          · cases committed with
            | some err => exact .pure fun c hc => ⟨hc.1, fun herr => nomatch herr⟩
            | none =>
              refine .bind (triple_reportStatusBestEffort ?_) fun _ => .pure fun c hc => hc
              exact fun c reports hc => ⟨hc.1, fun herr => (hc.2 herr).congr o rfl (.inl rfl)⟩

end Singlink.V2Board
