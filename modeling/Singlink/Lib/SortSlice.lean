import Mathlib.Data.List.Sort
/-!
# Sorting with a comparison function

`sort.Slice` leaves elements that the function does not tell apart in any order.
A comparison that goes through the fields one after another is `StrictBy` the
tuple of the fields: it tells apart what differs in one of them, so that the
sorted tuples are determined by the elements.
-/

namespace Singlink.Lib

variable {α κ : Type}

/-- `less` is a strict order that leaves open only the order of elements with the
same key. -/
structure StrictBy (key : α → κ) (less : α → α → Bool) : Prop where
  irrefl : ∀ a b, key a = key b → less a b = false
  trans : ∀ a b c, less a b = true → less b c = true → less a c = true
  total : ∀ a b, less a b = true ∨ key a = key b ∨ less b a = true

/-- The elements of `xs` in an order that `sort.Slice` may give them. -/
structure SliceSorted (less : α → α → Bool) (xs sorted : List α) : Prop where
  perm : sorted.Perm xs
  ordered : sorted.Pairwise fun a b => ¬less b a

namespace StrictBy

variable {a b : α} {less : α → α → Bool} {key : α → κ}

/-- Elements with the same key are less, and greater, than the same ones. -/
theorem of_eq_left (h : StrictBy key less) {c : α} (hab : key a = key b)
    (hbc : less b c = true) : less a c = true := by
  rcases h.total a c with hac | hac | hca
  · exact hac
  · rw [h.irrefl b c (hab.symm.trans hac)] at hbc
    cases hbc
  · have hba := h.trans b c a hbc hca
    rw [h.irrefl b a hab.symm] at hba
    cases hba

theorem of_eq_right (h : StrictBy key less) {c : α} (hab : less a b = true)
    (hbc : key b = key c) : less a c = true := by
  rcases h.total a c with hac | hac | hca
  · exact hac
  · rw [h.irrefl a b (hac.trans hbc.symm)] at hab
    cases hab
  · have hcb := h.trans c a b hca hab
    rw [h.irrefl c b hbc.symm] at hcb
    cases hcb

/-- One more field, compared first. -/
theorem andThen {φ : Type} [DecidableEq φ] {field : α → φ} {first : α → α → Bool}
    (hfirst : StrictBy field first) (h : StrictBy key less) :
    StrictBy (fun a => (field a, key a)) fun a b => if field a ≠ field b then first a b else less a b where
  irrefl a b hab := by
    obtain ⟨hf, hk⟩ := Prod.mk.injEq .. ▸ hab
    rw [if_neg (not_not.2 hf)]
    exact h.irrefl a b hk
  trans a b c hab hbc := by
    by_cases h1 : field a = field b
    · rw [if_neg (not_not.2 h1)] at hab
      by_cases h2 : field b = field c
      · rw [if_neg (not_not.2 h2)] at hbc
        rw [if_neg (not_not.2 (h1.trans h2))]
        exact h.trans a b c hab hbc
      · rw [if_pos h2] at hbc
        rw [if_pos (h1 ▸ h2)]
        exact hfirst.of_eq_left h1 hbc
    · rw [if_pos h1] at hab
      by_cases h2 : field b = field c
      · rw [if_pos (h2 ▸ h1)]
        exact hfirst.of_eq_right hab h2
      · rw [if_pos h2] at hbc
        have hac := hfirst.trans a b c hab hbc
        by_cases h3 : field a = field c
        · rw [hfirst.irrefl a c h3] at hac
          cases hac
        · rw [if_pos h3]
          exact hac
  total a b := by
    by_cases hf : field a = field b
    · rw [if_neg (not_not.2 hf), if_neg (not_not.2 hf.symm), hf]
      rcases h.total a b with hab | hk | hba
      · exact .inl hab
      · exact .inr (.inl (by rw [hk]))
      · exact .inr (.inr hba)
    · rw [if_pos hf, if_pos (Ne.symm hf)]
      rcases hfirst.total a b with hab | hk | hba
      · exact .inl hab
      · exact absurd hk hf
      · exact .inr (.inr hba)

theorem of_lt {φ : Type} [LT φ] [LE φ] [Std.IsLinearOrder φ] [Std.LawfulOrderLT φ] {field : α → φ}
    (h : ∀ a b, less a b = true ↔ field a < field b) : StrictBy field less where
  irrefl a b hab := by
    rw [Bool.eq_false_iff, ne_eq, h, hab]
    exact Std.lt_irrefl
  trans a b c hab hbc := (h a c).2 (Std.lt_trans ((h a b).1 hab) ((h b c).1 hbc))
  total a b := by
    rw [h, h]
    exact Std.lt_trichotomy _ _

theorem congr_key {κ' : Type} {key' : α → κ'} (h : StrictBy key less)
    (hkey : ∀ a b, key' a = key' b ↔ key a = key b) : StrictBy key' less where
  irrefl a b hab := h.irrefl a b ((hkey a b).1 hab)
  trans := h.trans
  total a b := (h.total a b).imp_right (.imp_left (hkey a b).2)

variable {key : α → κ} {less : α → α → Bool}

/-- What is not less is less the other way around or has the same key. -/
theorem not_less (h : StrictBy key less) : ¬less b a ↔ less a b = true ∨ key a = key b := by
  constructor
  · intro hba
    rcases h.total a b with hab | hk | hba'
    · exact .inl hab
    · exact .inr hk
    · exact absurd hba' hba
  · rintro (hab | hk) hba
    · have haa := h.trans a b a hab hba
      rw [h.irrefl a a rfl] at haa
      cases haa
    · rw [h.irrefl b a hk.symm] at hba
      cases hba

theorem less_congr (h : StrictBy key less) {a' b' : α} (ha : key a = key a') (hb : key b = key b')
    (hab : less a b = true) : less a' b' = true :=
  h.of_eq_left ha.symm (h.of_eq_right hab hb)

theorem sorted_keys (h : StrictBy key less) {xs ys sorted sorted' : List α} (hs : SliceSorted less xs sorted)
    (hs' : SliceSorted less ys sorted') (hperm : (xs.map key).Perm (ys.map key)) :
    sorted.map key = sorted'.map key := by
  -- the order of the keys
  let le : κ → κ → Prop := fun k l => ∃ a b, key a = k ∧ key b = l ∧ ¬less b a
  have hordered : ∀ {l : List α}, l.Pairwise (fun a b => ¬less b a) → (l.map key).Pairwise le := by
    intro l hl
    rw [List.pairwise_map]
    exact hl.imp fun {a b} hab => ⟨a, b, rfl, rfl, hab⟩
  have hsame : (sorted.map key).Perm (sorted'.map key) :=
    ((hs.perm.map key).trans hperm).trans (hs'.perm.map key).symm
  refine List.Perm.eq_of_pairwise ?_ (hordered hs.ordered) (hordered hs'.ordered) hsame
  rintro _ _ - - ⟨a, b, rfl, rfl, hab⟩ ⟨b', a', hb', ha', hba⟩
  rcases h.not_less.1 hab with h1 | h1
  · exact absurd (h.less_congr ha'.symm hb'.symm h1) hba
  · exact h1

/-- `sort.Slice` has a result: an insertion sort is one. -/
theorem insertionSort_sorted (h : StrictBy key less) (xs : List α) :
    SliceSorted less xs (xs.insertionSort fun a b => ¬less b a) := by
  have htotal : Std.Total fun a b => ¬less b a := by
    refine ⟨fun a b => ?_⟩
    rw [h.not_less, h.not_less]
    rcases h.total a b with h1 | h1 | h1
    · exact .inl (.inl h1)
    · exact .inl (.inr h1)
    · exact .inr (.inl h1)
  have htrans : IsTrans α fun a b => ¬less b a := by
    refine ⟨fun a b c hab hbc => ?_⟩
    rw [h.not_less] at hab hbc ⊢
    rcases hab with hab | hab
    · rcases hbc with hbc | hbc
      · exact .inl (h.trans a b c hab hbc)
      · exact .inl (h.less_congr rfl hbc hab)
    · rcases hbc with hbc | hbc
      · exact .inl (h.less_congr hab.symm rfl hbc)
      · exact .inr (hab.trans hbc)
  exact ⟨List.perm_insertionSort _ xs, List.pairwise_insertionSort _ xs⟩

end StrictBy

end Singlink.Lib
