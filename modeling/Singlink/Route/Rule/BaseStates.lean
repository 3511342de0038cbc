import Singlink.Route.Rule.RuleSet
/-!
# The base of a state set

A rule is matched from a base, the flags that are set already. Every state it
finds has the flags of the base, and a larger base finds no less.
-/

namespace Singlink.Rule

open RuleMatchStateSet AbstractDefaultRule

variable {Ctx Msg S D : Type} {f g : RuleMatchState → RuleMatchStateSet} {b b' x y : RuleMatchState}

/-- Every flag of `b` is a flag of `x`. -/
def RuleMatchState.Sub (b x : RuleMatchState) : Prop := ∀ flag ∈ groupFlags, b.has flag = true → x.has flag = true

theorem RuleMatchState.Sub.or (h : b.Sub x) (h' : b'.Sub y) : (b ||| b').Sub (x ||| y) := by
  intro flag hflag hor
  rw [has_or, Bool.or_eq_true] at hor ⊢
  exact hor.imp (h flag hflag) (h' flag hflag)

/-- A state found from a base has its flags, and a larger base finds a state with
the flags of both. -/
def Rises (f : RuleMatchState → RuleMatchStateSet) : Prop :=
  ∀ b b', b.Sub b' → ∀ x, contains (f b) x = true → b.Sub x ∧ ∃ x', contains (f b') x' = true ∧ x.Sub x'

namespace Rises

theorem single : Rises singleRuleMatchState := by
  intro b b' hb x hx
  obtain rfl : x = b := by simpa using hx
  exact ⟨fun _ _ h => h, b', by simp, hb⟩

theorem zero : Rises fun _ => 0#16 := by simp [Rises]

theorem merge (hf : Rises f) (hg : Rises g) : Rises fun b => (f b).merge (g b) := by
  intro b b' hb x hx
  simp only [contains_merge, Bool.or_eq_true] at hx ⊢
  rcases hx with hx | hx
  · obtain ⟨hsub, x', hx', hsub'⟩ := hf b b' hb x hx
    exact ⟨hsub, x', .inl hx', hsub'⟩
  · obtain ⟨hsub, x', hx', hsub'⟩ := hg b b' hb x hx
    exact ⟨hsub, x', .inr hx', hsub'⟩

theorem combine (hf : Rises f) (hg : Rises g) : Rises fun b => (f b).combine (g b) := by
  intro b b' hb x hx
  obtain ⟨left, right, hleft, hright, rfl⟩ := (contains_combine _ _ _).1 hx
  obtain ⟨hl, left', hleft', hl'⟩ := hf b b' hb left hleft
  obtain ⟨hr, right', hright', hr'⟩ := hg b b' hb right hright
  refine ⟨?_, _, (contains_combine _ _ _).2 ⟨left', right', hleft', hright', rfl⟩, hl'.or hr'⟩
  exact BitVec.or_self (x := b) ▸ hl.or hr

theorem foldl {op : RuleMatchStateSet → RuleMatchStateSet → RuleMatchStateSet} {α : Type}
    {F : α → RuleMatchState → RuleMatchStateSet}
    (hop : ∀ {f g : RuleMatchState → RuleMatchStateSet}, Rises f → Rises g → Rises fun b => op (f b) (g b))
    (l : List α) (h : ∀ a ∈ l, Rises (F a)) (hf : Rises f) :
    Rises fun b => l.foldl (fun acc a => op acc (F a b)) (f b) := by
  induction l generalizing f with
  | nil => exact hf
  | cons a l ih => exact ih (fun a' ha' => h a' (.tail _ ha')) (hop hf (h a (.head _)))

end Rises

/-- What an inverted rule finds is its base, or nothing. -/
def Inverts (f : RuleMatchState → RuleMatchStateSet) : Prop :=
  ∃ c : Bool, ∀ b, f b = if c then withBase emptyRuleMatchState b else 0#16

theorem withBase_empty : withBase emptyRuleMatchState b = singleRuleMatchState b := by
  refine ext_contains fun x => ?_
  rw [Bool.eq_iff_iff, contains_withBase]
  simp

theorem Inverts.rises (h : Inverts f) : Rises f := by
  obtain ⟨c, h⟩ := h
  simp only [withBase_empty] at h
  cases c with
  | false => exact funext h ▸ .zero
  | true => exact funext h ▸ .single

structure Based (invert : Bool) (f : RuleMatchState → RuleMatchStateSet) : Prop where
  rises : Rises f
  inverts : invert = true → Inverts f

/-! ## Default rules -/

variable {r : AbstractDefaultRule Ctx Msg S} {m : InboundContext Ctx Msg}
  {ruleSet : S → InboundContext Ctx Msg → RuleMatchState → RuleMatchStateSet}

theorem satisfied_sub (h : b.Sub x) (hb : r.satisfied m b = true) : r.satisfied m x = true := by
  have hflags := fun flag hflag => h flag hflag
  simp only [groupFlags, List.forall_mem_cons] at hflags
  grind [satisfied_eq]

theorem inverts_default (hinv : r.invert = true) : Inverts (r.matchStatesWithBase ruleSet m) := by
  refine ⟨!isEmpty (r.matchStatesWithBase ruleSet m 0#4), fun b => ?_⟩
  simp only [matchStatesWithBase, invertedFailure, hinv, if_true, withBase_empty]
  grind [isEmpty_single, isEmpty_zero]

theorem contains_default (hinv : r.invert = false) (hne : r.allItems.isEmpty = false) :
    contains (r.matchStatesWithBase ruleSet m b) x = true ↔ r.items.all (· m.toItemContext) = true ∧
      contains (r.ruleSetItem.elim (singleRuleMatchState (r.matchGroups m b).1) fun item =>
        ruleSet item { m with didMatch := true } (r.matchGroups m b).1) x = true ∧ r.satisfied m x = true := by
  rw [r.matchStatesWithBase_eq ruleSet m (fun h => nomatch hinv ▸ h) b hne, ← contains_filter]
  simp only [hinv, invertedFailure]
  grind [isEmpty_iff, contains_zero]

theorem based_default (hset : ∀ item m, Rises (ruleSet item m)) :
    Based r.invert (r.matchStatesWithBase ruleSet m) := by
  refine ⟨?_, inverts_default⟩
  cases hinv : r.invert with
  | true => exact (inverts_default hinv).rises
  | false =>
    cases hne : r.allItems.isEmpty with
    | true => exact Inverts.rises ⟨true, fun b => by simp [matchStatesWithBase, hne]⟩
    | false =>
      intro b b' hb x hx
      obtain ⟨hitems, hx, hsat⟩ := (contains_default hinv hne).1 hx
      have hgroups := fun flag hflag b => r.has_matchGroups m b (f := flag) hflag
      have hfound : Rises fun base => r.ruleSetItem.elim (singleRuleMatchState base) fun item =>
          ruleSet item { m with didMatch := true } base := by
        cases r.ruleSetItem with
        | none => exact .single
        | some item => exact hset item _
      obtain ⟨hsub, x', hx', hsub'⟩ := hfound _ (r.matchGroups m b').1 (by
        intro flag hflag
        rw [hgroups flag hflag, hgroups flag hflag, Bool.or_eq_true, Bool.or_eq_true]
        exact Or.imp_left (hb flag hflag)) x hx
      refine ⟨fun flag hflag h => hsub flag hflag ?_, x',
        (contains_default hinv hne).2 ⟨hitems, hx', satisfied_sub hsub' hsat⟩, hsub'⟩
      rw [hgroups flag hflag, h, Bool.true_or]

/-! ## Trees -/

namespace RuleTree

variable {leaf : D → InboundContext Ctx Msg → RuleMatchState → RuleMatchStateSet} {inverts : D → Bool}

def invert (inverts : D → Bool) : RuleTree D → Bool
  | .default rule => inverts rule
  | .logical _ invert _ => invert

theorem based (hleaf : ∀ r m, Based (inverts r) (leaf r m)) (t : RuleTree D) (m : InboundContext Ctx Msg) :
    Based (t.invert inverts) (t.matchStatesWithBase leaf m) := by
  induction t using RuleTree.induct generalizing m with
  | default r =>
    simp only [matchStatesWithBase]
    exact hleaf r m
  | logical mode invert rules ih =>
    cases invert with
    | true =>
      have h : Inverts (matchStatesWithBase leaf (.logical mode true rules) m) :=
        ⟨_, matchStatesWithBase_inverted leaf mode rules m⟩
      exact ⟨h.rises, fun _ => h⟩
    | false =>
      refine ⟨?_, Bool.noConfusion⟩
      have hrules := fun t ht => (ih t ht m.resetRuleCache).rises
      simp only [funext (matchStatesWithBase_logical leaf mode rules m), joinStates, List.foldl_map, withBase_empty]
      cases mode with
      | and => exact .foldl .combine rules hrules .single
      | or => exact .foldl .merge rules hrules .zero

end RuleTree

/-! ## All rules -/

/-- What a larger base is to the states found. A rule that inverts finds some from
every base or from none. -/
structure BaseMonotone (invert : Bool) (f : RuleMatchState → RuleMatchStateSet) : Prop where
  above : ∀ b x, contains (f b) x = true → b.Sub x
  nonempty : ∀ b b', b.Sub b' → isEmpty (f b) = false → isEmpty (f b') = false
  inverted : invert = true → ∀ b b', isEmpty (f b) = isEmpty (f b')

theorem Based.baseMonotone {invert : Bool} (hf : Based invert f) : BaseMonotone invert f where
  above b x hx := (hf.rises b b (fun _ _ h => h) x hx).1
  nonempty b b' hb h := by
    obtain ⟨x, hx⟩ := (not_isEmpty_iff _).1 h
    obtain ⟨-, x', hx', -⟩ := hf.rises b b' hb x hx
    exact (not_isEmpty_iff _).2 ⟨x', hx'⟩
  inverted hinv b b' := by
    obtain ⟨c, h⟩ := hf.inverts hinv
    cases c <;> simp [h, withBase_empty, isEmpty_single]

theorem baseMonotone_matchStatesWithBase (m : InboundContext Ctx Msg) :
    (∀ t : RuleTree (DefaultRule Ctx Msg),
      BaseMonotone (t.invert (·.invert)) (t.matchStatesWithBase DefaultRule.matchStatesWithBase m)) ∧
    (∀ t : DNSRule Ctx Msg,
      BaseMonotone (t.invert (·.invert)) (t.matchStatesWithBase DefaultDNSRule.matchStatesWithBase m)) ∧
    (∀ t : HeadlessRule Ctx Msg, BaseMonotone (t.invert (·.invert)) (t.matchStatesWithBase m)) ∧
    (∀ s : RuleSet Ctx Msg, BaseMonotone false (s.matchStatesWithBase m)) ∧
    ∀ item : RuleSetItem Ctx Msg, BaseMonotone false (item.matchStatesWithBase m) := by
  have hrule : ∀ (t : HeadlessRule Ctx Msg) m, Based (t.invert (·.invert)) (t.matchStatesWithBase m) :=
    RuleTree.based fun _ _ => based_default fun item => item.elim
  have hset : ∀ (s : RuleSet Ctx Msg) m, Rises (s.matchStatesWithBase m) :=
    fun s m => .foldl .merge s.rules (fun rule _ => (hrule rule _).rises) .zero
  have hitem : ∀ (item : RuleSetItem Ctx Msg) m, Rises (item.matchStatesWithBase m) :=
    fun item m => .foldl .merge item.setList (fun set _ => hset set _) .zero
  exact ⟨fun t => (t.based (fun _ _ => based_default hitem) m).baseMonotone,
    fun t => (t.based (fun _ _ => based_default hitem) m).baseMonotone, fun t => (hrule t m).baseMonotone,
    fun s => Based.baseMonotone ⟨hset s m, nofun⟩, fun item => Based.baseMonotone ⟨hitem item m, nofun⟩⟩

end Singlink.Rule
