import Mathlib.Data.BitVec
/-!
# Sets of rule match states

`route/rule/match_state.go`. A match state says which of the four item groups
(source address, source port, destination address, destination port) have been
satisfied so far. The evaluator works with sets of states, kept as the 16 bits
of a `uint16`: bit `i` stands for the state with the flags of `i`.

`contains` is the only view of a set the rest of the development uses. Each
operation below has one lemma that says which states its result contains.
-/

namespace Singlink.Rule

/-- `ruleMatchState`. The `uint8` of the source only ever has its low four bits
set. -/
abbrev RuleMatchState := BitVec 4

def ruleMatchSourceAddress : RuleMatchState := 1#4 <<< 0
def ruleMatchSourcePort : RuleMatchState := 1#4 <<< 1
def ruleMatchDestinationAddress : RuleMatchState := 1#4 <<< 2
def ruleMatchDestinationPort : RuleMatchState := 1#4 <<< 3

def RuleMatchState.has (s target : RuleMatchState) : Bool := s &&& target != 0#4

abbrev RuleMatchStateSet := BitVec 16

/-- The states `range ruleMatchState(16)` goes through. -/
def allStates : List RuleMatchState := (List.range 16).map (BitVec.ofNat 4)

def singleRuleMatchState (state : RuleMatchState) : RuleMatchStateSet := 1#16 <<< state.toNat

def emptyRuleMatchState : RuleMatchStateSet := singleRuleMatchState 0#4

namespace RuleMatchStateSet

def isEmpty (s : RuleMatchStateSet) : Bool := s == 0#16

def contains (s : RuleMatchStateSet) (state : RuleMatchState) : Bool :=
  s &&& (1#16 <<< state.toNat) != 0#16

def add (s : RuleMatchStateSet) (state : RuleMatchState) : RuleMatchStateSet :=
  s ||| singleRuleMatchState state

def merge (s other : RuleMatchStateSet) : RuleMatchStateSet := s ||| other

def combine (s other : RuleMatchStateSet) : RuleMatchStateSet :=
  if isEmpty s || isEmpty other then 0#16
  else allStates.foldl (fun combined left =>
    if contains s left then
      allStates.foldl (fun combined right =>
        if contains other right then add combined (left ||| right) else combined) combined
    else combined) 0#16

def withBase (s : RuleMatchStateSet) (base : RuleMatchState) : RuleMatchStateSet :=
  if isEmpty s then 0#16
  else allStates.foldl (fun acc state => if contains s state then add acc (state ||| base) else acc) 0#16

def filter (s : RuleMatchStateSet) (allowed : RuleMatchState → Bool) : RuleMatchStateSet :=
  allStates.foldl (fun acc state =>
    if contains s state then if allowed state then add acc state else acc else acc) 0#16

end RuleMatchStateSet

open RuleMatchStateSet

/-! ## What the operations contain -/

variable (state : RuleMatchState)

theorem mem_allStates : state ∈ allStates :=
  List.mem_map.2 ⟨state.toNat, List.mem_range.2 state.isLt, by simp⟩

variable (s : RuleMatchStateSet)

theorem contains_eq_getLsbD : contains s state = s.getLsbD state.toNat := by
  have hne : ∀ state : RuleMatchState, 1#16 <<< state.toNat ≠ 0#16 := by decide
  unfold contains
  cases h : s.getLsbD state.toNat <;> rw [← BitVec.twoPow_eq, BitVec.and_twoPow, h]
  · rfl
  · simpa [BitVec.twoPow_eq] using hne state

theorem ext_contains {s t : RuleMatchStateSet} (h : ∀ state, contains s state = contains t state) : s = t := by
  refine BitVec.eq_of_getLsbD_eq fun i hi => ?_
  have := h (BitVec.ofNat 4 i)
  simp only [contains_eq_getLsbD, BitVec.toNat_ofNat] at this
  rwa [Nat.mod_eq_of_lt (by omega)] at this

@[simp] theorem contains_zero : contains 0#16 state = false := by
  simp [contains_eq_getLsbD]

theorem isEmpty_iff : isEmpty s = true ↔ ∀ state, contains s state = false := by
  constructor
  · intro h state
    rw [show s = 0#16 by simpa [isEmpty] using h, contains_zero]
  · intro h
    have : s = 0#16 := ext_contains fun state => by rw [h, contains_zero]
    simp [isEmpty, this]

theorem not_isEmpty_iff : isEmpty s = false ↔ ∃ state, contains s state = true := by
  rw [← Bool.not_eq_true, isEmpty_iff]
  simp

@[simp] theorem isEmpty_zero : isEmpty 0#16 = true := rfl

@[simp] theorem contains_single (state x : RuleMatchState) :
    contains (singleRuleMatchState state) x = decide (x = state) := by
  have hlt : state.toNat < 16 := state.isLt
  rw [contains_eq_getLsbD, singleRuleMatchState, ← BitVec.twoPow_eq]
  simp [hlt, eq_comm, BitVec.toNat_inj]

variable (x : RuleMatchState)

@[simp] theorem contains_empty : contains emptyRuleMatchState x = decide (x = 0#4) :=
  contains_single _ _

variable (s t : RuleMatchStateSet)

@[simp] theorem contains_merge : contains (merge s t) x = (contains s x || contains t x) := by
  simp [merge, contains_eq_getLsbD]

@[simp] theorem contains_add (state x : RuleMatchState) :
    contains (add s state) x = (contains s x || decide (x = state)) := by
  show contains (merge s (singleRuleMatchState state)) x = _
  simp

theorem foldl_iff {α β : Type} {P : β → Prop} {Q : α → Prop} {f : β → α → β} (h : ∀ b a, P (f b a) ↔ P b ∨ Q a)
    (l : List α) (b : β) : P (l.foldl f b) ↔ P b ∨ ∃ a ∈ l, Q a := by
  induction l generalizing b with
  | nil => simp
  | cons a l ih => rw [List.foldl_cons, ih, h, or_assoc, List.exists_mem_cons_iff]

theorem contains_foldl_add {p : RuleMatchState → Bool} {f : RuleMatchState → RuleMatchState}
    (l : List RuleMatchState) (acc : RuleMatchStateSet) (x : RuleMatchState) :
    contains (l.foldl (fun acc state => if p state then add acc (f state) else acc) acc) x = true ↔
      contains acc x = true ∨ ∃ state ∈ l, p state = true ∧ x = f state := by
  refine foldl_iff (P := fun acc => contains acc x = true) (fun acc state => ?_) l acc
  by_cases hp : p state = true
  · simp [hp, contains_add]
  · simp [hp]

theorem contains_withBase (base x : RuleMatchState) :
    contains (withBase s base) x = true ↔ ∃ state, contains s state = true ∧ x = state ||| base := by
  unfold withBase
  split
  · rename_i h
    simp [(isEmpty_iff s).1 h]
  · rw [contains_foldl_add]
    simp [mem_allStates]

variable (allowed : RuleMatchState → Bool)

theorem contains_filter : contains (filter s allowed) x = true ↔ contains s x = true ∧ allowed x = true := by
  have h : filter s allowed = allStates.foldl (fun acc state =>
      if (contains s state && allowed state) = true then add acc (id state) else acc) 0#16 := by
    unfold filter
    congr 1
    funext acc state
    cases contains s state <;> simp
  rw [h, contains_foldl_add]
  simp [mem_allStates]

theorem filter_single :
    filter (singleRuleMatchState state) allowed = if allowed state then singleRuleMatchState state else 0#16 := by
  apply ext_contains
  intro x
  rw [Bool.eq_iff_iff, contains_filter]
  by_cases h : x = state
  · subst h
    cases allowed x <;> simp
  · cases allowed state <;> simp [h]

theorem contains_combine_loop (s other : RuleMatchStateSet) (l : List RuleMatchState) (acc : RuleMatchStateSet)
    (x : RuleMatchState) :
    contains (l.foldl (fun combined left =>
      if contains s left = true then
        allStates.foldl (fun combined right =>
          if contains other right then add combined (left ||| right) else combined) combined
      else combined) acc) x = true ↔
      contains acc x = true ∨
        ∃ left ∈ l, contains s left = true ∧ ∃ right, contains other right = true ∧ x = left ||| right := by
  refine foldl_iff (P := fun acc => contains acc x = true) (fun acc left => ?_) l acc
  by_cases hleft : contains s left = true
  · simp [hleft, contains_foldl_add, mem_allStates]
  · simp [hleft]

theorem contains_combine (s other : RuleMatchStateSet) (x : RuleMatchState) : contains (combine s other) x = true ↔
      ∃ left right, contains s left = true ∧ contains other right = true ∧ x = left ||| right := by
  unfold combine
  split
  · rename_i h
    rw [Bool.or_eq_true] at h
    rcases h with h | h <;> simp [(isEmpty_iff _).1 h]
  · rw [contains_combine_loop]
    simp [mem_allStates]

@[simp] theorem isEmpty_merge : isEmpty (merge s t) = (isEmpty s && isEmpty t) := by
  rw [Bool.eq_iff_iff, Bool.and_eq_true]
  simp only [isEmpty_iff, contains_merge, Bool.or_eq_false_iff]
  exact forall_and

@[simp] theorem isEmpty_combine : isEmpty (combine s t) = (isEmpty s || isEmpty t) := by
  refine Bool.not_inj ?_
  rw [Bool.not_or, Bool.eq_iff_iff, Bool.and_eq_true, Bool.not_eq_true', Bool.not_eq_true', Bool.not_eq_true',
    not_isEmpty_iff, not_isEmpty_iff, not_isEmpty_iff]
  constructor
  · rintro ⟨x, hx⟩
    obtain ⟨l, r, hl, hr, -⟩ := (contains_combine s t x).1 hx
    exact ⟨⟨l, hl⟩, ⟨r, hr⟩⟩
  · rintro ⟨⟨l, hl⟩, ⟨r, hr⟩⟩
    exact ⟨_, (contains_combine s t _).2 ⟨l, r, hl, hr, rfl⟩⟩

@[simp] theorem isEmpty_empty : isEmpty emptyRuleMatchState = false := rfl

theorem isEmpty_single : isEmpty (singleRuleMatchState state) = false :=
  (not_isEmpty_iff _).2 ⟨state, by simp⟩

@[simp] theorem withBase_zero : withBase s 0#4 = s :=
  ext_contains fun x => by
    rw [Bool.eq_iff_iff, contains_withBase]
    simp

/-! ## Flags of a state -/

open RuleMatchState

theorem has_or (s t target : RuleMatchState) : has (s ||| t) target = (has s target || has t target) := by
  simp only [has, BitVec.and_or_distrib_right]
  rw [Bool.eq_iff_iff, Bool.or_eq_true, bne_iff_ne, bne_iff_ne, bne_iff_ne, ne_eq, BitVec.or_eq_zero_iff, not_and_or]

@[simp] theorem has_zero (target : RuleMatchState) : has 0#4 target = false := by
  simp [has]

end Singlink.Rule
