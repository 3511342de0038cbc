import Singlink.Adapter.Dependencies
import Singlink.Adapter.Lifecycle
import Singlink.Lib.Indexed
import Singlink.Lib.Runs
/-!
# Runs of the DNS transport manager

`Start`, `Remove` and `Create` of `dns/transport_manager.go`. Both `Remove` and
`Create` change the list and the map first and check afterwards, so an error may
leave a transport removed or registered; `Remove` of the default transport only
goes on if the next one is a fakeip transport, which is the wrong way around, and
nothing ever resets `fakeIPTransport`.
-/

namespace Singlink.Dns

open Adapter Lib List

/-- A transport that the registry has created, told from others by its pointer. -/
structure DNSTransport where
  ref : Nat
  type : String
  tag : String
  dependencies : List String
  deriving DecidableEq

def dnsTypeFakeIP : String := "fakeip"

/-- `TransportManager`. The next transport gets the pointer `next`. -/
structure TransportManager where
  started : Bool := false
  stage : StartStage := .stateInitialize
  transports : List DNSTransport := []
  transportByTag : GoMap String DNSTransport := ∅
  dependByTag : DependByTag := ∅
  defaultTransport : Option DNSTransport := none
  fakeIPTransport : Option DNSTransport := none
  next : Nat := 0

namespace TransportManager

inductive Error (E : Type) where
  | invalid
  | external (err : E)
  | defaultNotFound (tag : String)
  | fallback (err : E)
  | start (stage : StartStage) (transport : DNSTransport) (err : E)
  | close (existsTransport : DNSTransport) (err : E)
  | defaultFakeIP
  | multipleFakeIP
  | dependedBy (tag : String) (dependBy : List String)

/-- How the calls end that `Start` makes: of the fallback, of `startTransports`, and
of the stages other than the start. -/
structure StartOutcome (E : Type) where
  fallback : Option E := none
  startTransports : Option E := none
  start : DNSTransport → Option E := fun _ => none

/-- How the calls end that `Create` makes: of the registry, of the stages of the
new transport, and of `Close` of the one it replaces. -/
structure CreateOutcome (E : Type) where
  registry : Option E := none
  start : StartStage → Option E := fun _ => none
  closeExists : Option E := none

variable {E : Type} (defaultTag : String)

/-- `Start`, with the fallback that `box.go` provides. -/
def start (m : TransportManager) (stage : StartStage) (outcome : StartOutcome E) : Result (Error E) TransportManager :=
  if m.started ∧ stage.toNat ≤ m.stage.toNat then .panic "already started"
  else
    let m := { m with started := true, stage := stage }
    if stage = .stateStart then
      if m.defaultTransport.isSome then .returned (outcome.startTransports.map .external) m
      else if defaultTag ≠ "" then .returned (some (.defaultNotFound defaultTag)) m
      else
        match outcome.fallback with
        | some err => .returned (some (.fallback err)) m
        | none =>
          let defaultTransport : DNSTransport := { ref := m.next, type := "local", tag := "local", dependencies := [] }
          .returned (outcome.startTransports.map .external)
            { m with
              transports := m.transports ++ [defaultTransport]
              transportByTag := m.transportByTag.insert defaultTransport.tag defaultTransport
              defaultTransport := some defaultTransport
              next := m.next + 1 }
    else
      .returned ((startEach outcome.start m.transports).map fun (transport, err) => .start stage transport err) m

/-- `Remove`. What `Close` of the transport returns is dropped. -/
def remove (m : TransportManager) (tag : String) : Result (Error E) TransportManager :=
  match m.transportByTag.lookup tag with
  | none => .returned (some .invalid) m
  | some transport =>
    if transport ∉ m.transports then .panic "invalid inbound index"
    else
      let m :=
        { m with transportByTag := m.transportByTag.erase tag, transports := m.transports.erase transport }
      -- the rest, once the default transport is in order
      let finish (m : TransportManager) : Result (Error E) TransportManager :=
        let dependBy := m.dependByTag.dependents tag
        if !dependBy.isEmpty then .returned (some (.dependedBy tag dependBy)) m
        else .returned none { m with dependByTag := m.dependByTag.remove tag transport.dependencies }
      if m.defaultTransport = some transport then
        match m.transports with
        | nextTransport :: _ =>
          if nextTransport.type ≠ dnsTypeFakeIP then .returned (some .defaultFakeIP) m
          else finish { m with defaultTransport := some nextTransport }
        | [] => finish { m with defaultTransport := none }
      else finish m

/-- The last part of `Create`, from where the new transport is registered. -/
def put (m : TransportManager) (transport : DNSTransport) : Result (Error E) TransportManager :=
  let m :=
    { m with
      transports := m.transports ++ [transport]
      transportByTag := m.transportByTag.insert transport.tag transport
      dependByTag := m.dependByTag.add transport.tag transport.dependencies }
  let isDefault := transport.tag = defaultTag ∨ (defaultTag = "" ∧ m.defaultTransport = none)
  if isDefault ∧ transport.type = dnsTypeFakeIP then .returned (some .defaultFakeIP) m
  else
    let m := if isDefault then { m with defaultTransport := some transport } else m
    if transport.type = dnsTypeFakeIP then
      if m.fakeIPTransport.isSome then .returned (some .multipleFakeIP) m
      else .returned none { m with fakeIPTransport := some transport }
    else .returned none m

def create (m : TransportManager) (tag transportType : String) (dependencies : List String)
    (outcome : CreateOutcome E) : Result (Error E) TransportManager :=
  if tag = "" then .returned (some .invalid) m
  else
    match outcome.registry with
    | some err => .returned (some (.external err)) m
    | none =>
      let transport : DNSTransport := { ref := m.next, type := transportType, tag, dependencies }
      let m := { m with next := m.next + 1 }
      match (if m.started then startStages outcome.start else none) with
      | some (stage, err) => .returned (some (.start stage transport err)) m
      | none =>
        match m.transportByTag.lookup tag with
        | none => m.put defaultTag transport
        | some existsTransport =>
          match (if m.started then outcome.closeExists else none) with
          | some err => .returned (some (.close existsTransport err)) m
          | none =>
            if existsTransport ∉ m.transports then .panic "invalid inbound index"
            else put defaultTag { m with transports := m.transports.erase existsTransport } transport

/-! ## Runs -/

inductive Op (E : Type) where
  | start (stage : StartStage) (outcome : StartOutcome E)
  | remove (tag : String)
  | create (tag transportType : String) (dependencies : List String) (outcome : CreateOutcome E)

def call (m : TransportManager) : Op E → Result (Error E) TransportManager
  | .start stage outcome => m.start defaultTag stage outcome
  | .remove tag => m.remove tag
  | .create tag transportType dependencies outcome => m.create defaultTag tag transportType dependencies outcome

def system (defaultTag : String) (E : Type) : System TransportManager (Op E) :=
  .ofPartial (· = {}) fun m op => (m.call defaultTag op).after?

/-- The list and the map hold the same transports, and the default and the fakeip
transport are among them. -/
structure Consistent (m : TransportManager) : Prop where
  indexed : Indexed DNSTransport.tag m.transports m.transportByTag
  default : ∀ transport, m.defaultTransport = some transport →
    transport ∈ m.transports ∧ transport.type ≠ dnsTypeFakeIP
  fakeIP : ∀ transport, m.fakeIPTransport = some transport → transport ∈ m.transports

/-- What is registered is the same. -/
def Same (m m' : TransportManager) : Prop :=
  m'.transports = m.transports ∧ m'.transportByTag = m.transportByTag ∧
    m'.defaultTransport = m.defaultTransport ∧ m'.fakeIPTransport = m.fakeIPTransport

/-- The transport of a tag may be given up: it is not the fakeip transport. -/
def Spare (m : TransportManager) (tag : String) : Prop :=
  ∀ transport, m.transportByTag.lookup tag = some transport → m.fakeIPTransport ≠ some transport

/-- `Remove` is called for tags that nothing depends on, not for the fakeip
transport, and for the default transport only if it is the last. `Create` makes no
fakeip transport the default or the second of its kind, and replaces neither the
fakeip transport nor the default one, unless that is the one that was asked for. -/
def Op.Careful (m : TransportManager) : Op E → Prop
  | .start _ _ => True
  | .remove tag => m.Spare tag ∧ m.dependByTag.dependents tag = [] ∧
      (∀ transport ∈ m.transports, transport.tag ≠ tag → tag ∉ transport.dependencies) ∧
      ∀ transport, m.transportByTag.lookup tag = some transport → m.defaultTransport = some transport →
        m.transports = [transport]
  | .create tag transportType _ _ => m.Spare tag ∧
      (∀ transport, m.transportByTag.lookup tag = some transport → m.defaultTransport = some transport →
        tag = defaultTag) ∧
      (transportType = dnsTypeFakeIP → m.fakeIPTransport = none ∧ tag ≠ defaultTag ∧
        (defaultTag = "" → m.defaultTransport ≠ none))

/-! ## Steps -/

/-- What careful calls keep: a manager without a default tag has a default
transport once it has any. -/
structure Inv (m : TransportManager) : Prop extends m.Consistent where
  fresh : ∀ transport ∈ m.transports, transport.ref < m.next
  noDefault : defaultTag = "" → m.defaultTransport = none → m.transports = []

variable {defaultTag} {m : TransportManager}

theorem Inv.next (h : m.Inv defaultTag) : Inv defaultTag { m with next := m.next + 1 } :=
  ⟨⟨h.indexed, h.default, h.fakeIP⟩, fun t ht => Nat.lt_succ_of_lt (h.fresh t ht), h.noDefault⟩

theorem Inv.start_ends (h : m.Inv defaultTag) (stage : StartStage) (outcome : StartOutcome E) :
    (m.start defaultTag stage outcome).Ends fun _ m' => m'.Inv defaultTag := by
  have hstarted : Inv defaultTag { m with started := true, stage := stage } :=
    ⟨⟨h.indexed, h.default, h.fakeIP⟩, h.fresh, h.noDefault⟩
  unfold start
  split
  · rfl
  · simp only
    split
    · split
      · exact hstarted
      · rename_i hnone
        have hnone : m.defaultTransport = none := by simpa using hnone
        split
        · exact hstarted
        · rename_i htag
          split
          · exact hstarted
          · -- there are no transports yet
            have hempty : m.transports = [] := h.noDefault (not_not.1 htag) hnone
            have hlookup : m.transportByTag.lookup "local" = none := h.indexed.lookup_eq_none hempty "local"
            refine ⟨⟨h.indexed.append hlookup, ?_, ?_⟩, ?_, nofun⟩
            · rintro _ ⟨⟩
              exact ⟨mem_append_right _ (mem_singleton.2 rfl), show "local" ≠ "fakeip" by decide⟩
            · intro transport hfake
              exact mem_append_left _ (h.fakeIP transport hfake)
            · exact forall_mem_append.2 ⟨h.next.fresh, forall_mem_singleton.2 (Nat.lt_succ_self _)⟩
    · exact hstarted

theorem Inv.remove_ends (h : m.Inv defaultTag) {tag : String} (hop : (Op.remove tag : Op E).Careful defaultTag m) :
    (m.remove tag : Result (Error E) TransportManager).Ends fun err m' =>
      m'.Inv defaultTag ∧ (err ≠ none → m.Same m') := by
  obtain ⟨hspare, hdepend, -, hlast⟩ := hop
  unfold remove
  split
  · exact ⟨h, fun _ => ⟨rfl, rfl, rfl, rfl⟩⟩
  · rename_i transport hlookup
    have hmem := h.indexed.mem_of_lookup hlookup
    rw [if_neg (not_not_intro hmem)]
    have hfakeIP : ∀ other, m.fakeIPTransport = some other → other ∈ m.transports.erase transport := by
      intro other hother
      refine (h.indexed.nodup.mem_erase_iff).2 ⟨?_, h.fakeIP other hother⟩
      rintro rfl
      exact hspare other hlookup hother
    have hfresh : ∀ other ∈ m.transports.erase transport, other.ref < m.next :=
      fun other hother => h.fresh other (mem_of_mem_erase hother)
    simp only [hdepend, isEmpty_nil, Bool.not_true, Bool.false_eq_true, if_false]
    split
    · rename_i hdefault
      -- the default transport is the last
      have hempty : m.transports.erase transport = [] := by
        rw [hlast transport hlookup hdefault, erase_cons_head]
      rw [hempty]
      rw [hempty] at hfakeIP hfresh
      have hindexed := h.indexed.erase hlookup
      rw [hempty] at hindexed
      exact ⟨⟨⟨hindexed, nofun, hfakeIP⟩, hfresh, fun _ _ => rfl⟩, fun herr => absurd rfl herr⟩
    · rename_i hdefault
      refine ⟨⟨⟨h.indexed.erase hlookup, ?_, hfakeIP⟩, hfresh, ?_⟩, fun herr => absurd rfl herr⟩
      · intro other hother
        refine ⟨(h.indexed.nodup.mem_erase_iff).2 ⟨?_, (h.default other hother).1⟩, (h.default other hother).2⟩
        rintro rfl
        exact hdefault hother
      · intro hempty hnone
        rw [h.noDefault hempty hnone]
        rfl

/-- A new transport is registered without an error if it is not a fakeip transport
where there must be none. -/
theorem put_ends {transport : DNSTransport}
    (hindexed : Indexed DNSTransport.tag (m.transports ++ [transport])
      (m.transportByTag.insert transport.tag transport))
    (hfresh : ∀ other ∈ m.transports, other.ref < m.next) (hnext : transport.ref < m.next)
    (hdefault : ∀ other, m.defaultTransport = some other →
      (other ∈ m.transports ∧ other.type ≠ dnsTypeFakeIP) ∨ transport.tag = defaultTag)
    (hfakeIP : ∀ other, m.fakeIPTransport = some other → other ∈ m.transports)
    (hcareful : transport.type = dnsTypeFakeIP → m.fakeIPTransport = none ∧ transport.tag ≠ defaultTag ∧
      (defaultTag = "" → m.defaultTransport ≠ none)) :
    (m.put defaultTag transport : Result (Error E) TransportManager).Ends fun err m' =>
      err = none ∧ m'.Inv defaultTag := by
  have hself : transport ∈ m.transports ++ [transport] := mem_append_right _ (mem_singleton.2 rfl)
  have hfresh' : ∀ other ∈ m.transports ++ [transport], other.ref < m.next :=
    forall_mem_append.2 ⟨hfresh, forall_mem_singleton.2 hnext⟩
  have hfakeIP' : ∀ other, m.fakeIPTransport = some other → other ∈ m.transports ++ [transport] :=
    fun other hother => mem_append_left _ (hfakeIP other hother)
  unfold put
  simp only
  by_cases hisDefault : transport.tag = defaultTag ∨ (defaultTag = "" ∧ m.defaultTransport = none)
  · -- the new transport is the default one, so it is no fakeip transport
    have htype : transport.type ≠ dnsTypeFakeIP := by
      intro htype
      obtain ⟨-, htag, hsome⟩ := hcareful htype
      rcases hisDefault with hisDefault | ⟨hempty, hnone⟩
      · exact htag hisDefault
      · exact hsome hempty hnone
    rw [if_neg fun hboth => htype hboth.2, if_neg htype]
    simp only [if_pos hisDefault]
    refine ⟨rfl, ⟨hindexed, ?_, hfakeIP'⟩, hfresh', nofun⟩
    rintro _ ⟨⟩
    exact ⟨hself, htype⟩
  · have hdefault' : ∀ other, m.defaultTransport = some other →
        other ∈ m.transports ++ [transport] ∧ other.type ≠ dnsTypeFakeIP := by
      intro other hother
      rcases hdefault other hother with ⟨hmem, htype⟩ | htag
      · exact ⟨mem_append_left _ hmem, htype⟩
      · exact absurd (.inl htag) hisDefault
    have hnoDefault : defaultTag = "" → m.defaultTransport = none → m.transports ++ [transport] = [] :=
      fun hempty hnone => absurd (.inr ⟨hempty, hnone⟩) hisDefault
    rw [if_neg fun hboth => hisDefault hboth.1]
    simp only [if_neg hisDefault]
    split
    · rename_i htype
      rw [(hcareful htype).1]
      refine ⟨rfl, ⟨hindexed, hdefault', ?_⟩, hfresh', hnoDefault⟩
      rintro _ ⟨⟩
      exact hself
    · exact ⟨rfl, ⟨hindexed, hdefault', hfakeIP'⟩, hfresh', hnoDefault⟩

theorem Inv.create_ends (h : m.Inv defaultTag) {tag transportType : String} {dependencies : List String}
    {outcome : CreateOutcome E} (hop : (Op.create tag transportType dependencies outcome).Careful defaultTag m) :
    (m.create defaultTag tag transportType dependencies outcome).Ends fun err m' =>
      m'.Inv defaultTag ∧ (err ≠ none → m.Same m') := by
  obtain ⟨hspare, hreplaced, hfake⟩ := hop
  have hput : ∀ {r : Result (Error E) TransportManager}, (r.Ends fun err m' => err = none ∧ m'.Inv defaultTag) →
      r.Ends fun err m' => m'.Inv defaultTag ∧ (err ≠ none → m.Same m') :=
    fun hr => hr.mono fun err m' hm' => ⟨hm'.2, fun herr => absurd hm'.1 herr⟩
  have hfresh := h.next.fresh
  unfold create
  split
  · exact ⟨h, fun _ => ⟨rfl, rfl, rfl, rfl⟩⟩
  · split
    · exact ⟨h, fun _ => ⟨rfl, rfl, rfl, rfl⟩⟩
    · simp only
      split
      · exact ⟨h.next, fun _ => ⟨rfl, rfl, rfl, rfl⟩⟩
      · split
        · rename_i hlookup
          refine hput (put_ends (h.indexed.append hlookup) hfresh (Nat.lt_succ_self _) ?_ h.fakeIP hfake)
          exact fun other hother => .inl (h.default other hother)
        · rename_i existsTransport hlookup
          split
          · exact ⟨h.next, fun _ => ⟨rfl, rfl, rfl, rfl⟩⟩
          · rw [if_neg (not_not_intro (h.indexed.mem_of_lookup hlookup))]
            refine hput (put_ends (h.indexed.replace hlookup) ?_ (Nat.lt_succ_self _) ?_ ?_ hfake)
            · exact fun other hother => hfresh other (mem_of_mem_erase hother)
            · intro other hother
              by_cases hsame : other = existsTransport
              · subst hsame
                exact .inr (hreplaced other hlookup hother)
              · obtain ⟨hmem, htype⟩ := h.default other hother
                exact .inl ⟨(h.indexed.nodup.mem_erase_iff).2 ⟨hsame, hmem⟩, htype⟩
            · intro other hother
              refine (h.indexed.nodup.mem_erase_iff).2 ⟨?_, h.fakeIP other hother⟩
              rintro rfl
              exact hspare other hlookup hother

/-- What a call should do: an error of `Remove` or `Create` leaves what is
registered. -/
def Unharmed (m : TransportManager) (op : Op E) (err : Option (Error E)) (m' : TransportManager) : Prop :=
  match op with
  | .start _ _ => True
  | _ => err ≠ none → m.Same m'

theorem Inv.call_ends (h : m.Inv defaultTag) {op : Op E} (hop : op.Careful defaultTag m) :
    (m.call defaultTag op).Ends fun err m' => m'.Inv defaultTag ∧ m.Unharmed op err m' := by
  cases op with
  | start stage outcome => exact (h.start_ends stage outcome).mono fun _ _ hm' => ⟨hm', trivial⟩
  | remove tag => exact h.remove_ends hop
  | create tag transportType dependencies outcome => exact h.create_ends hop

theorem inv_new (defaultTag : String) : Inv defaultTag {} := ⟨⟨.empty _, nofun, nofun⟩, nofun, fun _ _ => rfl⟩

/-- In a run of careful calls the list and the map hold the same transports, the
default transport is one of them and no fakeip transport, the fakeip transport is
one of them, and the next careful call changes nothing if it fails. -/
theorem transports_consistent
    (h : Reach (system defaultTag E) (fun m op => op.Careful defaultTag m) m) :
    m.Consistent ∧ ∀ op : Op E, op.Careful defaultTag m → (m.call defaultTag op).Ends (m.Unharmed op) := by
  have hm : m.Inv defaultTag := by
    refine h.inv (Inv defaultTag) ?_ ?_
    · rintro _ rfl
      exact inv_new defaultTag
    · intro m op m' hm hop hstep
      obtain ⟨_, hm', -⟩ := (hm.call_ends hop).of_after hstep
      exact hm'
  exact ⟨hm.toConsistent, fun op hop => (hm.call_ends hop).mono fun _ _ hm' => hm'.2⟩

/-- A default and a fakeip transport; one that depends on the first was removed. -/
def sample : TransportManager where
  started := true
  stage := .stateStart
  transports := [⟨0, "udp", "a", []⟩, ⟨1, "fakeip", "f", []⟩]
  transportByTag := ((((∅ : GoMap String DNSTransport).insert "a" ⟨0, "udp", "a", []⟩).insert "f"
    ⟨1, "fakeip", "f", []⟩).insert "b" ⟨2, "tls", "b", ["a"]⟩).erase "b"
  dependByTag := ((∅ : DependByTag).insert "a" ["b"]).erase "a"
  defaultTransport := some ⟨0, "udp", "a", []⟩
  fakeIPTransport := some ⟨1, "fakeip", "f", []⟩
  next := 3

theorem reach_sample : Reach (system "" Unit) (fun m op => op.Careful "" m) sample := by
  refine .leads (.init rfl) [.create "a" "udp" [] {}, .create "f" "fakeip" [] {}, .start .stateStart {},
    .create "b" "tls" ["a"] {}, .remove "b"] ?_
  refine ⟨⟨nofun, nofun, ?_⟩, _, rfl, ⟨nofun, nofun, ?_⟩, _, rfl, trivial, _, rfl, ⟨nofun, nofun, ?_⟩, _, rfl,
    ⟨?_, rfl, ?_, ?_⟩, _, rfl, rfl⟩
  · exact fun h => absurd h (by decide)
  · exact fun _ => ⟨rfl, by decide, nofun⟩
  · exact fun h => absurd h (by decide)
  · rintro _ ⟨⟩ h
    exact absurd h (by decide)
  · decide
  · rintro _ ⟨⟩ h
    exact absurd h (by decide)

theorem transports_consistent_sample : sample.Consistent ∧
    ∀ op : Op Unit, op.Careful "" sample → (sample.call "" op).Ends (sample.Unharmed op) :=
  transports_consistent reach_sample

/-- Errors that change what is registered. `Remove` of a default transport with
another behind it fails, but the default transport is gone from the list; `Remove`
of a transport that another depends on fails, but removes it; and a fakeip
transport that cannot be the default one stays registered. -/
theorem errors_change_transports :
    (∃ m m' : TransportManager, Reach (system "" Unit) (fun _ _ => True) m ∧
      m.call "" (.remove "a" : Op Unit) = .returned (some .defaultFakeIP) m' ∧ ¬ m'.Consistent) ∧
    (∃ m m' : TransportManager, Reach (system "" Unit) (fun _ _ => True) m ∧
      m.call "" (.remove "b" : Op Unit) = .returned (some (.dependedBy "b" ["c"])) m' ∧
        (m.transportByTag.lookup "b").isSome ∧ m'.transportByTag.lookup "b" = none) ∧
    ∃ m', call "" {} (.create "f" "fakeip" [] {} : Op Unit) = .returned (some .defaultFakeIP) m' ∧
      (m'.transportByTag.lookup "f").isSome := by
  refine ⟨?_, ?_, _, rfl, rfl⟩
  · refine ⟨_, _, .leads (.init rfl) [.create "a" "udp" [] {}, .create "b" "tls" [] {}]
      ⟨trivial, _, rfl, trivial, _, rfl, rfl⟩, rfl, fun h => ?_⟩
    have hmem := (h.default _ rfl).1
    exact absurd hmem (by decide)
  · exact ⟨_, _, .leads (.init rfl) [.create "a" "udp" [] {}, .create "b" "tls" [] {}, .create "c" "tls" ["b"] {}]
      ⟨trivial, _, rfl, trivial, _, rfl, trivial, _, rfl, rfl⟩, rfl, rfl, rfl⟩

end TransportManager

end Singlink.Dns
