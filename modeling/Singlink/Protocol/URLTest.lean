import Singlink.Lib.GoMap
/-!
# The outbound that a URLTest group selects

A member of a group may be a selector or a URLTest group itself. Measurements belong to
what the member has selected (`RealTag`), in a history that all groups share. A failed
dial deletes those of the member's own tag; if the member is a URLTest group, its own
dial has failed before and has deleted those of the outbound it went through.
-/

namespace Singlink.URLTest

open List Lib Function

inductive Network
  | tcp
  | udp
deriving DecidableEq

/-- `adapter.Outbound`, after its start: a selector with what it has selected, and a
URLTest group with its members and its selected outbounds. -/
inductive Outbound
  | single (tag : String) (networks : List Network)
  | selector (tag : String) (selected : Outbound)
  | urlTest (tag : String) (tolerance : UInt16) (outbounds : List Outbound)
      (selectedOutboundTCP selectedOutboundUDP : Option Outbound)

namespace Outbound

def tag : Outbound → String
  | single tag _ => tag
  | selector tag _ => tag
  | urlTest tag _ _ _ _ => tag

def networks : Outbound → List Network
  | single _ networks => networks
  | selector _ selected => selected.networks
  | urlTest _ _ _ _ _ => [.tcp, .udp]

/-- `Now()` of a group. -/
def now : Outbound → Option String
  | single _ _ => none
  | selector _ selected => some selected.tag
  | urlTest _ _ _ (some outbound) _ => some outbound.tag
  | urlTest _ _ _ none (some outbound) => some outbound.tag
  | urlTest _ _ _ none none => some ""

mutual
def decEq : (a b : Outbound) → Decidable (a = b)
  | single tag networks, single tag' networks' =>
    decidable_of_iff (tag = tag' ∧ networks = networks') (by simp)
  | selector tag selected, selector tag' selected' =>
    match decEq selected selected' with
    | .isTrue h => decidable_of_iff (tag = tag') (by simp [h])
    | .isFalse h => .isFalse (by simp [h])
  | urlTest tag tolerance outbounds tcp udp, urlTest tag' tolerance' outbounds' tcp' udp' =>
    match decEqList outbounds outbounds', decEqOption tcp tcp', decEqOption udp udp' with
    | .isTrue ho, .isTrue ht, .isTrue hu => decidable_of_iff (tag = tag' ∧ tolerance = tolerance') (by simp [ho, ht, hu])
    | .isFalse h, _, _ => .isFalse (by simp [h])
    | _, .isFalse h, _ => .isFalse (by simp [h])
    | _, _, .isFalse h => .isFalse (by simp [h])
  | single _ _, selector _ _ | single _ _, urlTest _ _ _ _ _ | selector _ _, single _ _
  | selector _ _, urlTest _ _ _ _ _ | urlTest _ _ _ _ _, single _ _ | urlTest _ _ _ _ _, selector _ _ =>
    .isFalse nofun

def decEqList : (a b : List Outbound) → Decidable (a = b)
  | [], [] => .isTrue rfl
  | [], _ :: _ | _ :: _, [] => .isFalse nofun
  | a :: as, b :: bs =>
    match decEq a b, decEqList as bs with
    | .isTrue h, .isTrue hs => .isTrue (by rw [h, hs])
    | .isFalse h, _ => .isFalse (by simp [h])
    | _, .isFalse h => .isFalse (by simp [h])

def decEqOption : (a b : Option Outbound) → Decidable (a = b)
  | none, none => .isTrue rfl
  | none, some _ | some _, none => .isFalse nofun
  | some a, some b =>
    match decEq a b with
    | .isTrue h => .isTrue (by rw [h])
    | .isFalse h => .isFalse (by simp [h])
end

instance : DecidableEq Outbound := decEq

end Outbound

def realTag (detour : Outbound) : String := detour.now.getD detour.tag

/-- The delays of the `HistoryStorage`. -/
abbrev History := GoMap String UInt16

/-- `URLTestGroup`, with the delays that all groups share. `selected` are `selectedOutboundTCP` and
`selectedOutboundUDP`. -/
structure URLTestGroup where
  outbounds : List Outbound
  tolerance : UInt16
  history : History
  selected : Network → Option Outbound

namespace URLTestGroup

variable (g : URLTestGroup) (network : Network)

def measured (detour : Outbound) : Option UInt16 := g.history.lookup (realTag detour)

def supported : List Outbound := g.outbounds.filter (network ∈ ·.networks)

/-- One round of the loop of `Select`, where a delay of zero is an unset one. -/
def selectRound (min : UInt16 × Option Outbound) (detour : Outbound) : UInt16 × Option Outbound :=
  match g.measured detour with
  | none => min
  | some delay => if min.1 = 0 ∨ delay + g.tolerance < min.1 then (delay, some detour) else min

/-- What the loop starts from: the selected outbound, if it is measured. -/
def current : UInt16 × Option Outbound :=
  match g.selected network with
  | none => (0, none)
  | some outbound =>
    match g.measured outbound with
    | none => (0, none)
    | some delay => (delay, some outbound)

def select : Option Outbound × Bool :=
  match ((g.supported network).foldl g.selectRound (g.current network)).2 with
  | none => ((g.supported network).head?, false)
  | some outbound => (some outbound, true)

/-- The part of `performUpdateCheck` for one network. -/
def updateSelected : URLTestGroup :=
  match g.select network with
  | (none, _) => g
  | (some outbound, isMeasured) =>
    if g.selected network = none ∨ isMeasured ∧ g.selected network ≠ some outbound then
      { g with selected := Function.update g.selected network (some outbound) }
    else g

def performUpdateCheck : URLTestGroup := (g.updateSelected .tcp).updateSelected .udp

/-- The outbound that `DialContext` and `ListenPacket` go through. -/
def dialed : Option Outbound := (g.selected network).or (g.select network).1

/-- Another outbound that `Select` could return. -/
def Another (outbound p : Outbound) : Prop :=
  p ∈ g.supported network ∧ p ≠ outbound ∧ g.measured p ≠ none

/-- The measured outbounds in the order `Select` looks at them: the selected one, and the supported members. -/
def scanned : List (Outbound × UInt16) :=
  ((g.selected network).toList ++ g.supported network).filterMap fun detour => (g.measured detour).map (detour, ·)

/-- A round with a measured outbound. -/
def round (min : UInt16 × Option Outbound) (x : Outbound × UInt16) : UInt16 × Option Outbound :=
  if min.1 = 0 ∨ x.2 + g.tolerance < min.1 then (x.2, some x.1) else min

theorem foldl_selectRound (l : List Outbound) (min : UInt16 × Option Outbound) : l.foldl g.selectRound min =
    (l.filterMap fun detour => (g.measured detour).map (detour, ·)).foldl g.round min := by
  induction l generalizing min with
  | nil => rfl
  | cons detour l ih =>
    rw [foldl_cons, ih, selectRound]
    cases hm : g.measured detour with
    | none => rw [filterMap_cons_none (by rw [hm]; rfl)]
    | some delay =>
      rw [filterMap_cons_some (by rw [hm]; rfl), foldl_cons]
      rfl

/-- The loop as one over all that is measured: the selected outbound replaces nothing. -/
theorem foldl_scanned :
    (g.supported network).foldl g.selectRound (g.current network) = (g.scanned network).foldl g.round (0, none) := by
  have hcurrent : g.current network = (g.selected network).toList.foldl g.selectRound (0, none) := by
    unfold current
    cases g.selected network with
    | none => rfl
    | some p =>
      show _ = g.selectRound (0, none) p
      cases hm : g.measured p <;> simp [selectRound, hm]
  rw [hcurrent, ← foldl_append, foldl_selectRound]
  rfl

variable {g network}

theorem mem_scanned {p : Outbound} {delay : UInt16} : (p, delay) ∈ g.scanned network ↔
    (g.selected network = some p ∨ p ∈ g.supported network) ∧ g.measured p = some delay := by
  simp [scanned, or_and_right]

/-- What the loop over measured outbounds makes of one that was found. -/
structure Found (tolerance : UInt16) (start : Outbound × UInt16) (l : List (Outbound × UInt16))
    (p : Outbound) (delay : UInt16) : Prop where
  origin : (p, delay) = start ∨ (p, delay) ∈ l ∧ delay.toNat + tolerance.toNat < start.2.toNat
  least : ∀ x ∈ start :: l, delay.toNat ≤ x.2.toNat + tolerance.toNat

theorem foldl_round_mem {l : List (Outbound × UInt16)} {min : UInt16 × Option Outbound} {p : Outbound}
    (h : (l.foldl g.round min).2 = some p) : min.2 = some p ∨ ∃ delay, (p, delay) ∈ l := by
  induction l generalizing min with
  | nil => exact .inl h
  | cons x l ih =>
    rcases ih h with hmin | ⟨delay, hmem⟩
    · rw [round] at hmin
      split at hmin
      · cases hmin
        exact .inr ⟨x.2, mem_cons_self⟩
      · exact .inl hmin
    · exact .inr ⟨delay, mem_cons_of_mem _ hmem⟩

theorem foldl_round_ne_none {l : List (Outbound × UInt16)} {min : UInt16 × Option Outbound} (h : min.2 ≠ none) :
    (l.foldl g.round min).2 ≠ none := by
  induction l generalizing min with
  | nil => exact h
  | cons x l ih =>
    refine ih ?_
    rw [round]
    split
    · exact Option.some_ne_none _
    · exact h

/-- `Select` returns an outbound that is measured if it has looked at one. -/
theorem select_of_scanned (h : g.scanned network ≠ []) :
    ∃ p delay, g.select network = (some p, true) ∧ (p, delay) ∈ g.scanned network := by
  have hne : ((g.scanned network).foldl g.round (0, none)).2 ≠ none := by
    obtain ⟨first, rest, hscan⟩ := exists_cons_of_ne_nil h
    rw [hscan, foldl_cons, round, if_pos (.inl rfl)]
    exact foldl_round_ne_none (Option.some_ne_none _)
  obtain ⟨p, hp⟩ := Option.ne_none_iff_exists'.1 hne
  obtain ⟨delay, hmem⟩ := (foldl_round_mem hp).resolve_left (Option.some_ne_none p).symm
  refine ⟨p, delay, ?_, hmem⟩
  rw [select, foldl_scanned, hp]

theorem select_mem {p : Outbound} (h : (g.select network).1 = some p) :
    g.selected network = some p ∨ p ∈ g.outbounds := by
  by_cases hscan : g.scanned network = []
  · rw [select, foldl_scanned, hscan] at h
    exact .inr (mem_of_mem_filter (mem_of_mem_head? h))
  · obtain ⟨q, delay, hselect, hmem⟩ := select_of_scanned hscan
    rw [hselect] at h
    cases h
    exact (mem_scanned.1 hmem).1.imp_right mem_of_mem_filter

theorem dialed_mem {p : Outbound} (h : g.dialed network = some p) :
    g.selected network = some p ∨ p ∈ g.outbounds := by
  rcases Option.or_eq_some_iff.1 h with hsel | ⟨-, hselect⟩
  · exact .inl hsel
  · exact select_mem hselect

end URLTestGroup

/-! ## After a failed dial -/

namespace Outbound

/-- A URLTest group that is an outbound. -/
def group (tolerance : UInt16) (outbounds : List Outbound) (selectedOutboundTCP selectedOutboundUDP : Option Outbound)
    (history : History) : URLTestGroup where
  outbounds := outbounds
  tolerance := tolerance
  history := history
  selected
    | .tcp => selectedOutboundTCP
    | .udp => selectedOutboundUDP

theorem sizeOf_dialed (tag : String) {tolerance : UInt16} {outbounds : List Outbound} {tcp udp : Option Outbound}
    {history : History} {network : Network} {p : Outbound}
    (h : (group tolerance outbounds tcp udp history).dialed network = some p) :
    sizeOf p < sizeOf (urlTest tag tolerance outbounds tcp udp) := by
  rcases URLTestGroup.dialed_mem h with hsel | hmem
  · cases network with
    | tcp =>
      obtain rfl : tcp = some p := hsel
      simp only [urlTest.sizeOf_spec, Option.some.sizeOf_spec]
      omega
    | udp =>
      obtain rfl : udp = some p := hsel
      simp only [urlTest.sizeOf_spec, Option.some.sizeOf_spec]
      omega
  · have hlt := sizeOf_lt_of_mem (show p ∈ outbounds from hmem)
    simp only [urlTest.sizeOf_spec]
    omega

/-- What is left of the delays when a dial through the outbound has failed. A selector passes the error on; a URLTest
group deletes the measurement of the outbound it went through. -/
def dialFailed (network : Network) (history : History) : Outbound → History
  | single _ _ => history
  | selector _ selected => selected.dialFailed network history
  | urlTest tag tolerance outbounds tcp udp =>
    match h : (group tolerance outbounds tcp udp history).dialed network with
    | none => history
    | some outbound =>
      have := sizeOf_dialed tag h
      (outbound.dialFailed network history).erase outbound.tag
termination_by outbound => sizeOf outbound
decreasing_by
  · decreasing_tactic
  · assumption

/-- A URLTest group on the way of a dial through the first outbound goes through the second. -/
inductive DialsThrough (network : Network) (history : History) : Outbound → Outbound → Prop
  | selector {tag : String} {selected p : Outbound} : DialsThrough network history selected p →
      DialsThrough network history (.selector tag selected) p
  | urlTest {tag : String} {tolerance : UInt16} {outbounds : List Outbound} {tcp udp : Option Outbound} {p : Outbound} :
      (group tolerance outbounds tcp udp history).dialed network = some p →
      DialsThrough network history (.urlTest tag tolerance outbounds tcp udp) p
  | inside {tag : String} {tolerance : UInt16} {outbounds : List Outbound} {tcp udp : Option Outbound} {d p : Outbound} :
      (group tolerance outbounds tcp udp history).dialed network = some d → DialsThrough network history d p →
      DialsThrough network history (.urlTest tag tolerance outbounds tcp udp) p

/-- A failed dial deletes the measurements of what the URLTest groups on the way went through, and no others. -/
theorem lookup_dialFailed (network : Network) (history : History) (outbound : Outbound) (tag : String) :
    (outbound.dialFailed network history).lookup tag = none ↔
      (∃ p, DialsThrough network history outbound p ∧ p.tag = tag) ∨ history.lookup tag = none := by
  fun_induction dialFailed network history outbound with
  | case1 => exact ⟨.inr, fun h => h.resolve_left fun ⟨p, hp, _⟩ => nomatch hp⟩
  | case2 tag' selected ih =>
    rw [ih]
    refine or_congr_left (exists_congr fun p => and_congr_left fun _ => ⟨.selector, ?_⟩)
    rintro (hp | _)
    exact hp
  | case3 tag' tolerance outbounds tcp udp hnone =>
    refine ⟨.inr, fun h => h.resolve_left ?_⟩
    rintro ⟨p, hp, -⟩
    cases hp with
    | urlTest h | inside h _ =>
      rw [hnone] at h
      cases h
  | case4 tag' tolerance outbounds tcp udp d hd _ ih =>
    rw [GoMap.lookup_erase_eq, ite_eq_left_iff, ih]
    constructor
    · intro h
      by_cases htag : tag = d.tag
      · exact .inl ⟨d, .urlTest hd, htag.symm⟩
      · exact (h htag).imp_left fun ⟨p, hp, hpt⟩ => ⟨p, .inside hd hp, hpt⟩
    · rintro (⟨p, hp, hpt⟩ | hnone) htag
      · cases hp with
        | urlTest h =>
          rw [hd] at h
          cases h
          exact absurd hpt.symm htag
        | inside h hp =>
          rw [hd] at h
          cases h
          exact .inl ⟨p, hp, hpt⟩
      · exact .inr hnone

end Outbound

namespace URLTestGroup

variable {g : URLTestGroup} {network : Network}

/-- The group when `DialContext` or `ListenPacket` have failed through that outbound. -/
def dialFailed (g : URLTestGroup) (network : Network) (outbound : Outbound) : URLTestGroup :=
  { g with history := (outbound.dialFailed network g.history).erase outbound.tag }

/-- Without a measurement of the selected outbound, `Select` finds one that is measured if there is one. -/
theorem select_eq {p : Outbound} (hcur : ∀ o, g.selected network = some o → g.measured o = none)
    (hp : p ∈ g.supported network) (hm : g.measured p ≠ none) :
    ∃ p ∈ g.supported network, g.measured p ≠ none ∧ g.select network = (some p, true) := by
  obtain ⟨d, hd⟩ := Option.ne_none_iff_exists'.1 hm
  obtain ⟨q, delay, hselect, hmem⟩ := select_of_scanned (ne_nil_of_mem (mem_scanned.2 ⟨.inr hp, hd⟩))
  obtain ⟨hsel | hq, hqm⟩ := mem_scanned.1 hmem
  · rw [hcur q hsel] at hqm
    cases hqm
  · exact ⟨q, hq, by simp [hqm], hselect⟩

theorem updateSelected_of_ne {other : Network} (h : network ≠ other) :
    (g.updateSelected other).select network = g.select network ∧
      (g.updateSelected other).selected network = g.selected network := by
  unfold updateSelected
  split
  · exact ⟨rfl, rfl⟩
  · next outbound _ _ =>
    split
    · have hsel : update g.selected other (some outbound) network = g.selected network :=
        update_of_ne h _ _
      simp only [select, current, hsel, and_true]
      rfl
    · exact ⟨rfl, rfl⟩

/-- A measured outbound that `Select` returns is selected. -/
theorem selected_performUpdateCheck {p : Outbound} (h : g.select network = (some p, true)) :
    g.performUpdateCheck.selected network = some p := by
  have hupdate : ∀ g : URLTestGroup, g.select network = (some p, true) →
      (g.updateSelected network).selected network = some p := by
    intro g hg
    simp only [updateSelected, hg]
    split
    · exact update_self ..
    · simp_all
  cases network with
  | tcp => exact (updateSelected_of_ne (by decide)).2.trans (hupdate g h)
  | udp => exact hupdate _ ((updateSelected_of_ne (by decide)).1.trans h)

/-- A failed dial leaves no measurement of its outbound, and another outbound is selected if one is
measured, if and only if the outbound has the tag it is measured under, or a URLTest group on the way
of the dial went through an outbound with that tag, or nothing was measured under it. -/
theorem failed_dial_iff (g : URLTestGroup) (network : Network) (outbound : Outbound)
    (h : g.dialed network = some outbound) : ((g.dialFailed network outbound).measured outbound = none ∧
      ((∃ p, (g.dialFailed network outbound).Another network outbound p) →
        ∃ p, (g.dialFailed network outbound).Another network outbound p ∧
          (g.dialFailed network outbound).performUpdateCheck.selected network = some p)) ↔
      outbound.tag = realTag outbound ∨
        (∃ p, outbound.DialsThrough network g.history p ∧ p.tag = realTag outbound) ∨ g.measured outbound = none := by
  have hforgets : (g.dialFailed network outbound).measured outbound = none ↔ outbound.tag = realTag outbound ∨
      (∃ p, outbound.DialsThrough network g.history p ∧ p.tag = realTag outbound) ∨ g.measured outbound = none := by
    rw [measured, dialFailed, GoMap.lookup_erase_eq, ite_eq_left_iff, Outbound.lookup_dialFailed,
      ← or_iff_not_imp_left, eq_comm]
    rfl
  refine ⟨fun hgone => hforgets.1 hgone.1, fun hcond => ⟨hforgets.2 hcond, ?_⟩⟩
  rintro ⟨q, hq, -, hqm⟩
  have hgone := hforgets.2 hcond
  have hcur : ∀ o, (g.dialFailed network outbound).selected network = some o →
      (g.dialFailed network outbound).measured o = none := by
    intro o ho
    have hsel : g.selected network = some o := ho
    obtain rfl : o = outbound := by simpa [dialed, hsel] using h
    exact hgone
  obtain ⟨p, hp, hpm, hsel⟩ := select_eq hcur hq hqm
  exact ⟨p, ⟨hp, fun hpo => hpm (hpo ▸ hgone), hpm⟩, selected_performUpdateCheck hsel⟩

end URLTestGroup

/-! ## Samples -/

def sampleOutbound : Outbound := .single "c" [.tcp, .udp]

def sampleSelector : Outbound := .selector "a" (.single "b" [.tcp, .udp])

/-- A URLTest group that goes through different outbounds for the two networks. -/
def sampleNested : Outbound := .urlTest "d" 50 [] (some (.single "b" [.tcp])) (some (.single "e" [.udp]))

def sampleGroup (selected : Outbound) : URLTestGroup where
  outbounds := [selected, sampleOutbound]
  tolerance := 50
  history := (AList.insert "b" 100 ∅).insert "c" 120
  selected := fun _ => some selected

/-- A dial over TCP fails in the nested group: it has deleted the measurement of `b` itself. -/
theorem failed_dial_iff_nested :
    ((sampleGroup sampleNested).dialFailed .tcp sampleNested).measured sampleNested = none :=
  ((URLTestGroup.failed_dial_iff (sampleGroup sampleNested) .tcp sampleNested rfl).2
    (.inr (.inl ⟨.single "b" [.tcp], .urlTest rfl, rfl⟩))).1

theorem dialFailed_sampleSelector (history : History) : sampleSelector.dialFailed .tcp history = history := by
  rw [sampleSelector, Outbound.dialFailed, Outbound.dialFailed]

theorem dialFailed_sampleNested (history : History) : sampleNested.dialFailed .udp history = history.erase "e" := by
  rw [sampleNested, Outbound.dialFailed]
  split
  · rename_i hnone
    cases hnone
  · rename_i outbound hsome
    cases hsome
    rw [Outbound.dialFailed]
    rfl

/-- The sample group still measures the outbound after a failed dial through it, and keeps it selected. -/
def Keeps (o : Outbound) (network : Network) : Prop :=
  (sampleGroup o).dialed network = some o ∧
    ((sampleGroup o).dialFailed network o).measured o = some 100 ∧
    ((sampleGroup o).dialFailed network o).measured sampleOutbound = some 120 ∧
    ((sampleGroup o).dialFailed network o).performUpdateCheck.selected network = some o

/-- The selector keeps the measurement of `b` when a dial fails; so does the nested group when a dial over UDP fails,
which goes through `e`. -/
theorem failed_dial_kept : Keeps sampleSelector .tcp ∧ Keeps sampleNested .udp := by
  simp only [Keeps, URLTestGroup.dialFailed, dialFailed_sampleSelector, dialFailed_sampleNested]
  exact ⟨by decide +kernel, by decide +kernel⟩

end Singlink.URLTest
