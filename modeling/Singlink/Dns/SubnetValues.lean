import Singlink.Dns.Transparency
/-!
# The value of a message with a client subnet

`setClientSubnet` looks for an OPT record and a subnet option in one pass over
the extra section, and takes the last record it saw if no option was found. So
an OPT record without a subnet option is missed unless it comes last.
`subnetSet_iff` says that this is the only way in which the result can be wrong.
-/

namespace Singlink.Dns

open List EDNS0

/-! ## The function on values -/

theorem replaceF_middle {α : Type} {f : α → Option α} {pre post : List α} {a b : α} (hpre : ∀ x ∈ pre, f x = none)
    (ha : f a = some b) : (pre ++ a :: post).replaceF f = pre ++ b :: post := by
  induction pre with
  | nil => simp [replaceF, ha]
  | cons x pre ih =>
    rw [cons_append, replaceF, hpre x (by simp), ih (fun y hy => hpre y (by simp [hy]))]
    rfl

/-- The replacements that `setClientSubnet` makes in the records of a message. -/
def replaceRecord (subnet : Subnet) (v : RR) : Option RR := if v.hasSubnet then some (v.replaceSubnet subnet) else none

variable (subnet : Subnet) {m : Msg}

theorem setClientSubnet_of_any (hany : m.extra.any RR.hasSubnet = true) :
    setClientSubnet m subnet = { m with extra := m.extra.replaceF (replaceRecord subnet) } := by
  rw [setClientSubnet, hany]
  rfl

theorem setClientSubnet_of_opt_last {pre : List RR} {name : String} {cls : UInt16}
    {ttl : UInt32} {options : List EDNS0} (hany : m.extra.any RR.hasSubnet = false)
    (hextra : m.extra = pre ++ [⟨name, cls, ttl, .opt options⟩]) : setClientSubnet m subnet =
      { m with extra := pre ++ [⟨name, cls, ttl, .opt (options ++ [subnetOption subnet 0])⟩] } := by
  rw [setClientSubnet, hany, hextra]
  simp [RR.isOPT, RR.addSubnet]

def newOPTRecord (subnet : Subnet) : RR := ⟨".", 0, 0, .opt [subnetOption subnet 0]⟩

attribute [local simp] EDNS0.replaceSubnet filter_append newOPTRecord replaceRecord

theorem setClientSubnet_of_none (hany : m.extra.any RR.hasSubnet = false)
    (hlast : m.extra.getLast?.any RR.isOPT = false) :
    setClientSubnet m subnet = { m with extra := m.extra ++ [newOPTRecord subnet] } := by
  rw [setClientSubnet, hany]
  cases hget : m.extra.getLast? with
  | none => simp [getLast?_eq_none_iff.1 hget]
  | some last =>
    rw [hget, Option.any_some] at hlast
    simp [hlast]

/-! ## What the values are -/

def EDNS0.isSubnet (o : EDNS0) : Bool := o.code == edns0Subnet

def RR.options (r : RR) : List EDNS0 :=
  match r.data with
  | .opt options => options
  | _ => []

def Msg.optRecords (m : Msg) : List RR := m.extra.filter RR.isOPT

/-- At most one OPT record, and at most one subnet option in it. -/
structure Msg.SingleSubnet (m : Msg) : Prop where
  opt : m.optRecords.length ≤ 1
  subnet : ((m.extra.flatMap RR.options).filter EDNS0.isSubnet).length ≤ 1

/-- `m'` is `m` with the subnet: one OPT record with one subnet option, and everything else as in `m`. -/
structure SubnetSet (subnet : Subnet) (m m' : Msg) : Prop where
  sections : { m' with extra := m.extra } = m
  others : m'.extra.filter (!·.isOPT) = m.extra.filter (!·.isOPT)
  opt : ∃ r, m'.optRecords = [r] ∧ (∃ scope, r.options.filter EDNS0.isSubnet = [subnetOption subnet scope]) ∧
    r.options.filter (!·.isSubnet) = (m.optRecords.flatMap RR.options).filter (!·.isSubnet) ∧
    ∀ old ∈ m.optRecords, { r with data := old.data } = old

/-- An OPT record without a subnet option that another record follows. -/
def HidesOPT (m : Msg) : Prop :=
  m.optRecords ≠ [] ∧ m.extra.any RR.hasSubnet = false ∧ m.extra.getLast?.any RR.isOPT = false

@[simp] theorem isSubnet_subnetOption (scope : UInt8) : (subnetOption subnet scope).isSubnet = true := by
  simp [isSubnet, subnetOption]

theorem filter_replaceSubnet {options : List EDNS0} (hany : options.any isSubnet = true)
    (hone : (options.filter isSubnet).length ≤ 1) :
    (∃ scope, (options.replaceF (replaceSubnet subnet)).filter isSubnet = [subnetOption subnet scope]) ∧
      (options.replaceF (replaceSubnet subnet)).filter (!·.isSubnet) = options.filter (!·.isSubnet) := by
  induction options with
  | nil => cases hany
  | cons o options ih =>
    cases ho : o.isSubnet with
    | true =>
      have hcode : (o.code == edns0Subnet) = true := ho
      have hrest : options.filter isSubnet = [] := by
        rw [filter_cons_of_pos ho] at hone
        simpa using hone
      rw [replaceF, replaceSubnet, hcode]
      exact ⟨⟨o.data.getD 3 0, by simp [hrest]⟩, by simp [ho]⟩
    | false =>
      have hcode : (o.code == edns0Subnet) = false := ho
      rw [any_cons, ho] at hany
      rw [filter_cons_of_neg (by simp [ho])] at hone
      obtain ⟨⟨scope, hfilter⟩, hothers⟩ := ih hany hone
      have hreplace : (o :: options).replaceF (replaceSubnet subnet) =
          o :: options.replaceF (replaceSubnet subnet) := by
        simp [replaceF, hcode]
      rw [hreplace]
      exact ⟨⟨scope, by simp [ho, hfilter]⟩, by simp [ho, hothers]⟩

variable {r : RR}

theorem hasSubnet_eq_false_of_not_isOPT (hr : r.isOPT = false) : r.hasSubnet = false := by
  obtain ⟨name, cls, ttl, data⟩ := r
  cases data <;> first | rfl | cases hr

theorem optRecords_cases (hm : m.optRecords.length ≤ 1) :
    (∀ r ∈ m.extra, r.isOPT = false) ∨ ∃ pre name cls ttl options post,
      m.extra = pre ++ ⟨name, cls, ttl, .opt options⟩ :: post ∧ (∀ r ∈ pre, r.isOPT = false) ∧
        ∀ r ∈ post, r.isOPT = false := by
  by_cases hnone : ∀ r ∈ m.extra, r.isOPT = false
  · exact .inl hnone
  · simp only [not_forall, Bool.not_eq_false] at hnone
    obtain ⟨r, hr, hopt⟩ := hnone
    obtain ⟨pre, post, hextra⟩ := append_of_mem hr
    obtain ⟨name, cls, ttl, data⟩ := r
    cases data with
    | opt options =>
      rw [Msg.optRecords, hextra, filter_append, filter_cons_of_pos hopt, length_append,
        length_cons] at hm
      refine .inr ⟨pre, name, cls, ttl, options, post, hextra, ?_, ?_⟩
      · have hpre : pre.filter RR.isOPT = [] := length_eq_zero_iff.1 (by omega)
        simpa using hpre
      · have hpost : post.filter RR.isOPT = [] := length_eq_zero_iff.1 (by omega)
        simpa using hpost
    | _ => cases hopt

theorem filter_isOPT_eq_nil {l : List RR} (hl : ∀ r ∈ l, r.isOPT = false) : l.filter RR.isOPT = [] := by
  simpa using hl

theorem any_hasSubnet_of_not_isOPT {l : List RR} (hl : ∀ r ∈ l, r.isOPT = false) : l.any RR.hasSubnet = false := by
  rw [any_eq_false]
  intro r hr
  simp [hasSubnet_eq_false_of_not_isOPT (hl r hr)]

section
variable {m : Msg} {pre post : List RR} {name : String} {cls : UInt16} {ttl : UInt32} {options : List EDNS0}

theorem subnetSet_of_no_opt (subnet : Subnet) (hnone : ∀ r ∈ m.extra, r.isOPT = false) :
    SubnetSet subnet m (setClientSubnet m subnet) := by
  have hopts : m.optRecords = [] := filter_isOPT_eq_nil hnone
  have hlast : m.extra.getLast?.any RR.isOPT = false := by
    cases hget : m.extra.getLast? with
    | none => rfl
    | some last => exact hnone last (mem_of_getLast? hget)
  rw [setClientSubnet_of_none subnet (any_hasSubnet_of_not_isOPT hnone) hlast]
  refine ⟨rfl, by simp [RR.isOPT], newOPTRecord subnet, ?_, ⟨0, ?_⟩, ?_, ?_⟩
  · rw [Msg.optRecords, filter_append, filter_isOPT_eq_nil hnone]
    rfl
  · simp [RR.options]
  · simp [RR.options, hopts]
  · simp [hopts]

theorem subnetSet_middle {subnet : Subnet} {options' : List EDNS0}
    (hextra : m.extra = pre ++ ⟨name, cls, ttl, .opt options⟩ :: post) (hpre : ∀ r ∈ pre, r.isOPT = false)
    (hpost : ∀ r ∈ post, r.isOPT = false)
    (hsubnet : ∃ scope, options'.filter isSubnet = [subnetOption subnet scope])
    (hothers : options'.filter (!·.isSubnet) = options.filter (!·.isSubnet)) :
    SubnetSet subnet m { m with extra := pre ++ ⟨name, cls, ttl, .opt options'⟩ :: post } := by
  have hopts : ∀ options : List EDNS0, (pre ++ (⟨name, cls, ttl, .opt options⟩ : RR) :: post).filter RR.isOPT =
      [⟨name, cls, ttl, .opt options⟩] := by
    intro options
    rw [filter_append, filter_cons_of_pos rfl, filter_isOPT_eq_nil hpre, filter_isOPT_eq_nil hpost]
    rfl
  have hm : m.optRecords = [⟨name, cls, ttl, .opt options⟩] := by rw [Msg.optRecords, hextra, hopts]
  refine ⟨rfl, ?_, ⟨name, cls, ttl, .opt options'⟩, hopts options', hsubnet, ?_, ?_⟩
  · rw [hextra]
    simp [RR.isOPT]
  · rw [hm]
    simpa [RR.options] using hothers
  · simp [hm]

theorem subnetSet_iff_of_opt (subnet : Subnet) (hextra : m.extra = pre ++ ⟨name, cls, ttl, .opt options⟩ :: post)
    (hpre : ∀ r ∈ pre, r.isOPT = false) (hpost : ∀ r ∈ post, r.isOPT = false)
    (hone : (options.filter isSubnet).length ≤ 1) :
    SubnetSet subnet m (setClientSubnet m subnet) ↔ ¬HidesOPT m := by
  have hopts : m.optRecords ≠ [] := by
    rw [Msg.optRecords, hextra, filter_append, filter_cons_of_pos rfl]
    simp
  have hanypre := any_hasSubnet_of_not_isOPT hpre
  have hanypost := any_hasSubnet_of_not_isOPT hpost
  have hany : m.extra.any RR.hasSubnet = options.any isSubnet := by
    rw [hextra, any_append, any_cons, hanypre, hanypost, Bool.or_false]
    rfl
  cases hsubnet : options.any isSubnet with
  | true =>
    obtain ⟨hscope, hothers⟩ := filter_replaceSubnet subnet hsubnet hone
    have hreplace : m.extra.replaceF (replaceRecord subnet) =
        pre ++ ⟨name, cls, ttl, .opt (options.replaceF (replaceSubnet subnet))⟩ :: post := by
      rw [hextra]
      apply replaceF_middle
      · intro r hr
        simp [hasSubnet_eq_false_of_not_isOPT (hpre r hr)]
      · have hr : RR.hasSubnet ⟨name, cls, ttl, .opt options⟩ = true := hsubnet
        rw [replaceRecord, hr]
        rfl
    rw [setClientSubnet_of_any subnet (hany.trans hsubnet), hreplace]
    refine iff_of_true (subnetSet_middle hextra hpre hpost hscope hothers) ?_
    rintro ⟨-, hfalse, -⟩
    rw [hany, hsubnet] at hfalse
    cases hfalse
  | false =>
    cases post using reverseRecOn with
    | nil =>
      have hnone : options.filter isSubnet = [] := by simpa using hsubnet
      rw [setClientSubnet_of_opt_last subnet (hany.trans hsubnet) hextra]
      refine iff_of_true (subnetSet_middle hextra hpre hpost ⟨0, ?_⟩ ?_) ?_
      · simp [hnone]
      · simp
      · rintro ⟨-, -, hlast⟩
        simp [hextra, RR.isOPT] at hlast
    | append_singleton post last =>
      -- the record is passed over, and a second one is added
      have hlast : last.isOPT = false := hpost last (by simp)
      have hget : m.extra.getLast? = some last := by
        rw [hextra, ← cons_append, ← append_assoc, getLast?_concat]
      have hlast' : m.extra.getLast?.any RR.isOPT = false := by rw [hget, Option.any_some, hlast]
      rw [setClientSubnet_of_none subnet (hany.trans hsubnet) hlast']
      refine iff_of_false ?_ ?_
      · rintro ⟨-, -, r, hr, -⟩
        rw [Msg.optRecords, filter_append] at hr
        have hlength := congrArg length hr
        have hpos := length_pos_iff.2 hopts
        rw [length_append, filter_cons_of_pos rfl] at hlength
        simp only [filter_nil, length_singleton] at hlength
        rw [Msg.optRecords] at hpos
        omega
      · rw [not_not]
        exact ⟨hopts, hany.trans hsubnet, hlast'⟩
end

/-- The subnet is set as it should be exactly if no OPT record is hidden. -/
theorem subnetSet_iff (hm : m.SingleSubnet) : SubnetSet subnet m (setClientSubnet m subnet) ↔ ¬HidesOPT m := by
  rcases optRecords_cases hm.opt with hnone | ⟨pre, name, cls, ttl, options, post, hextra, hpre, hpost⟩
  · refine iff_of_true (subnetSet_of_no_opt subnet hnone) ?_
    rintro ⟨hopts, -⟩
    exact hopts (filter_isOPT_eq_nil hnone)
  · apply subnetSet_iff_of_opt subnet hextra hpre hpost
    have hone := hm.subnet
    rw [hextra, flatMap_append, flatMap_cons, filter_append, filter_append, length_append,
      length_append] at hone
    simp only [RR.options] at hone
    omega

/-! ## A second time -/

theorem replaceF_idem {α : Type} {f : α → Option α} (hf : ∀ a b, f a = some b → f b = some b) (l : List α) :
    (l.replaceF f).replaceF f = l.replaceF f := by
  induction l with
  | nil => rfl
  | cons a l ih =>
    cases ha : f a with
    | none =>
      have hcons : (a :: l).replaceF f = a :: l.replaceF f := by simp [replaceF, ha]
      rw [hcons, replaceF, ha, ih]
    | some b =>
      have hcons : (a :: l).replaceF f = b :: l := by simp [replaceF, ha]
      rw [hcons, replaceF, hf a b ha]

theorem replaceSubnet_idem (o o' : EDNS0) (h : o.replaceSubnet subnet = some o') :
    o'.replaceSubnet subnet = some o' := by
  rw [replaceSubnet] at h
  split at h
  · cases h
    simp [subnetOption]
  · cases h

theorem hasSubnet_replaceSubnet (hr : r.hasSubnet = true) : (r.replaceSubnet subnet).hasSubnet = true ∧
      (r.replaceSubnet subnet).replaceSubnet subnet = r.replaceSubnet subnet := by
  obtain ⟨name, cls, ttl, data⟩ := r
  cases data with
  | opt options =>
    have hidem := replaceF_idem (replaceSubnet_idem subnet) options
    refine ⟨?_, by simp only [RR.replaceSubnet, hidem]⟩
    obtain ⟨o, ho, hcode⟩ := any_eq_true.1 hr
    obtain ⟨o', b, hb, hmem⟩ := mem_replaceF (f := replaceSubnet subnet) ho (by rw [replaceSubnet, hcode]; rfl)
    simp only [RR.hasSubnet, RR.replaceSubnet, any_eq_true]
    refine ⟨b, hmem, ?_⟩
    rw [replaceSubnet] at hb
    split at hb
    · cases hb
      simp [subnetOption]
    · cases hb
  | _ => cases hr

theorem replaceRecord_idem (r r' : RR) (h : replaceRecord subnet r = some r') :
    replaceRecord subnet r' = some r' := by
  rw [replaceRecord] at h
  split at h
  · rename_i hsubnet
    cases h
    obtain ⟨hhas, hsame⟩ := hasSubnet_replaceSubnet subnet hsubnet
    rw [replaceRecord, hhas, if_pos rfl, hsame]
  · cases h

theorem hasSubnet_of_replaceRecord {subnet : Subnet} {r' : RR} (h : replaceRecord subnet r = some r') :
    r'.hasSubnet = true := by
  have hsame := replaceRecord_idem subnet r r' h
  rw [replaceRecord] at hsame
  split at hsame
  · assumption
  · cases hsame

theorem setClientSubnet_of_set {pre : List RR} {name : String} {cls : UInt16} {ttl : UInt32}
    {options : List EDNS0} (hpre : pre.any RR.hasSubnet = false) (hoptions : options.any isSubnet = false)
    (hm : m.extra = pre ++ [⟨name, cls, ttl, .opt (options ++ [subnetOption subnet 0])⟩]) :
    setClientSubnet m subnet = m := by
  have hr : RR.hasSubnet ⟨name, cls, ttl, .opt (options ++ [subnetOption subnet 0])⟩ = true := by
    simp [RR.hasSubnet, subnetOption]
  have hoption : (options ++ [subnetOption subnet 0]).replaceF (replaceSubnet subnet) =
      options ++ [subnetOption subnet 0] := by
    apply replaceF_middle
    · intro o ho
      have hcode : (o.code == edns0Subnet) = false := Bool.eq_false_iff.2 (any_eq_false.1 hoptions o ho)
      simp [hcode]
    · simp [subnetOption]
  have hextra : m.extra.replaceF (replaceRecord subnet) = m.extra := by
    rw [hm]
    apply replaceF_middle
    · intro r hmem
      simp [Bool.eq_false_iff.2 (any_eq_false.1 hpre r hmem)]
    · simp [hr, RR.replaceSubnet, hoption]
  rw [setClientSubnet_of_any subnet (by simp [hm, hr]), hextra]

theorem setClientSubnet_idem (m : Msg) :
    setClientSubnet (setClientSubnet m subnet) subnet = setClientSubnet m subnet := by
  cases hany : m.extra.any RR.hasSubnet with
  | true =>
    obtain ⟨r, hr, hsubnet⟩ := any_eq_true.1 hany
    obtain ⟨a, b, hb, hmem⟩ := mem_replaceF (f := replaceRecord subnet) hr (by rw [replaceRecord, if_pos hsubnet])
    have hany' : (m.extra.replaceF (replaceRecord subnet)).any RR.hasSubnet = true :=
      any_eq_true.2 ⟨b, hmem, hasSubnet_of_replaceRecord hb⟩
    rw [setClientSubnet_of_any subnet hany, setClientSubnet_of_any subnet hany']
    simp only [replaceF_idem (replaceRecord_idem subnet)]
  | false =>
    cases hlast : m.extra.getLast?.any RR.isOPT with
    | false =>
      rw [setClientSubnet_of_none subnet hany hlast]
      exact setClientSubnet_of_set subnet hany (any_nil) rfl
    | true =>
      obtain ⟨⟨name, cls, ttl, data⟩, hget, hopt⟩ := (Option.any_eq_true _ _).1 hlast
      obtain ⟨pre, hextra⟩ := getLast?_eq_some_iff.1 hget
      cases data with
      | opt options =>
        rw [hextra, any_append, Bool.or_eq_false_iff] at hany
        have hoptions : options.any isSubnet = false := by simpa [RR.hasSubnet, isSubnet] using hany.2
        rw [setClientSubnet_of_opt_last subnet (by rw [hextra, any_append, hany.1, hany.2]; rfl) hextra]
        exact setClientSubnet_of_set subnet hany.1 hoptions rfl
      | _ => cases hopt

end Singlink.Dns
