import Mathlib.Data.Set.Finite.List
import Mathlib.Data.Fintype.Card
import Mathlib.Data.List.Nodup
import Mathlib.Logic.Relation
/-!
# Entries that need others

Entries with a key, each of which needs the entries of some other keys. What can be
started, one entry after those it needs, is all of them if and only if nothing that
is needed is missing and nothing needs itself in the end.
-/

namespace Singlink.Lib

open List

/-- The key of an entry and the keys of those it needs. -/
structure Deps (A K : Type) where
  key : A → K
  needs : A → List K

namespace Deps

variable {A K : Type} (g : Deps A K) (list : List A)

/-- The entry of one key needs the other one. -/
def Needs (k k' : K) : Prop := ∃ a ∈ list, g.key a = k ∧ k' ∈ g.needs a

/-- Nothing that is needed is missing. -/
def Complete : Prop := ∀ a ∈ list, ∀ k ∈ g.needs a, k ∈ list.map g.key

/-- Nothing needs itself, be it through others. -/
def Acyclic : Prop := ∀ k, ¬ Relation.TransGen (g.Needs list) k k

/-- The key of an entry that can be started, as can those it needs. -/
inductive Ready : K → Prop
  | intro {a : A} : a ∈ list → (∀ k ∈ g.needs a, Ready k) → Ready (g.key a)

/-- Every entry comes after those it needs. -/
inductive InOrder : List A → Prop
  | nil : InOrder []
  | snoc {l : List A} {a : A} : InOrder l → (∀ k ∈ g.needs a, k ∈ l.map g.key) → InOrder (l ++ [a])

variable {g list} {k : K}

theorem Ready.mem (h : g.Ready list k) : k ∈ list.map g.key := by
  cases h with
  | intro ha _ => exact mem_map_of_mem ha

section

variable (hnodup : (list.map g.key).Nodup)

include hnodup

theorem eq_of_key {a b : A} (ha : a ∈ list) (hb : b ∈ list) (hkey : g.key a = g.key b) : a = b :=
  inj_on_of_nodup_map hnodup ha hb hkey

theorem ready_iff {a : A} (ha : a ∈ list) : g.Ready list (g.key a) ↔ ∀ k ∈ g.needs a, g.Ready list k := by
  constructor
  · intro h
    generalize hkey : g.key a = k at h
    cases h with
    | intro hb hneeds =>
      rw [eq_of_key hnodup ha hb hkey]
      exact hneeds
  · exact .intro ha

theorem Ready.not_cycle (h : g.Ready list k) : ¬ Relation.TransGen (g.Needs list) k k := by
  induction h with
  | @intro a ha _ ih =>
    intro hcycle
    obtain ⟨k', ⟨b, hb, hkey, hk'⟩, hback⟩ := Relation.TransGen.head'_iff.1 hcycle
    obtain rfl := eq_of_key hnodup ha hb hkey.symm
    -- the cycle also goes through what is needed first
    exact ih k' hk' (Relation.TransGen.trans_right hback (.single ⟨a, ha, rfl, hk'⟩))

end

theorem ready_of_acyclic (hcomplete : g.Complete list) (hacyclic : g.Acyclic list)
    (hk : k ∈ list.map g.key) : g.Ready list k := by
  have hfinite : Finite { k // k ∈ list.map g.key } := (finite_toSet (list.map g.key)).to_subtype
  let before (x y : { k // k ∈ list.map g.key }) : Prop := Relation.TransGen (g.Needs list) y.1 x.1
  have hirrefl : Std.Irrefl before := ⟨fun x => hacyclic x.1⟩
  have hwf : WellFounded before := Finite.wellFounded_of_trans_of_irrefl before
  have hready : ∀ x : { k // k ∈ list.map g.key }, g.Ready list x.1 := by
    intro x
    induction x using hwf.induction with
    | _ x ih =>
      obtain ⟨k, hk⟩ := x
      obtain ⟨a, ha, rfl⟩ := mem_map.1 hk
      refine .intro ha fun k' hk' => ?_
      exact ih ⟨k', hcomplete a ha k' hk'⟩ (.single ⟨a, ha, rfl, hk'⟩)
  exact hready ⟨k, hk⟩

theorem ready_all_iff (hnodup : (list.map g.key).Nodup) :
    (∀ a ∈ list, g.Ready list (g.key a)) ↔ g.Complete list ∧ g.Acyclic list := by
  constructor
  · intro h
    refine ⟨fun a ha k hk => ((ready_iff hnodup ha).1 (h a ha) k hk).mem, fun k hcycle => ?_⟩
    obtain ⟨k', ⟨a, ha, rfl, -⟩, -⟩ := Relation.TransGen.head'_iff.1 hcycle
    exact (h a ha).not_cycle hnodup hcycle
  · rintro ⟨hcomplete, hacyclic⟩ a ha
    exact ready_of_acyclic hcomplete hacyclic (mem_map_of_mem ha)

theorem InOrder.ready {l : List A} (h : g.InOrder l) (hsub : l ⊆ list) : ∀ k ∈ l.map g.key, g.Ready list k := by
  induction h with
  | nil => simp
  | @snoc l a _ hneeds ih =>
    have hl := ih fun b hb => hsub (mem_append_left _ hb)
    intro k hk
    rw [map_append, mem_append] at hk
    rcases hk with hk | hk
    · exact hl k hk
    · obtain rfl := mem_singleton.1 hk
      exact .intro (hsub (by simp)) fun k hk => hl k (hneeds k hk)

theorem Ready.mem_of_stable {started : List A}
    (hstable : ∀ a ∈ list, (∀ k ∈ g.needs a, k ∈ started.map g.key) → g.key a ∈ started.map g.key)
    (h : g.Ready list k) : k ∈ started.map g.key := by
  induction h with
  | intro ha _ ih => exact hstable _ ha ih

end Deps

end Singlink.Lib
