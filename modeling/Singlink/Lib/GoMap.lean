import Mathlib.Data.List.AList
import Mathlib.Algebra.BigOperators.Group.List.Basic
/-!
# Go maps

A map of the source is an `AList`: finitely many keys, each once. What differs
from an association list is `range`, which goes through the entries in an order
the run time picks; that order is an argument here.
-/

namespace Singlink.Lib

open List

abbrev GoMap (K V : Type) := AList fun _ : K => V

namespace GoMap

variable {K V : Type} [DecidableEq K]

/-- `m[k]`, with the zero value of the element type for a missing key. -/
def get (m : GoMap K V) (k : K) (zero : V) : V := (m.lookup k).getD zero

/-- The entries in the order `for k, v := range m` visits them. `order` is the
choice of the run time; a list that is no permutation of the keys stands for
some order as well. -/
def range (m : GoMap K V) (order : List K) : List (K × V) :=
  (if order.Perm m.keys then order else m.keys).filterMap fun k => (m.lookup k).map (k, ·)

theorem lookup_insert_eq (m : GoMap K V) (k k' : K) (v : V) :
    (m.insert k v).lookup k' = if k' = k then some v else m.lookup k' := by
  by_cases h : k' = k
  · subst h
    simp
  · rw [AList.lookup_insert_ne h, if_neg h]

theorem lookup_erase_eq (m : GoMap K V) (k k' : K) :
    (m.erase k).lookup k' = if k' = k then none else m.lookup k' := by
  by_cases h : k' = k
  · subst h
    simp
  · rw [AList.lookup_erase_ne h, if_neg h]

theorem insert_erase (m : GoMap K V) (k : K) (v : V) : (m.erase k).insert k v = m.insert k v := by
  refine AList.ext ?_
  rw [AList.entries_insert]
  congr 1
  exact kerase_of_notMem_keys (notMem_keys_kerase k m.nodupKeys)

variable {m : GoMap K V} {k : K} {v : V}

theorem lookup_of_insert {k' : K} {v' : V} (h : (m.insert k v).lookup k' = some v') :
    k' = k ∧ v' = v ∨ m.lookup k' = some v' := by
  rw [lookup_insert_eq] at h
  split at h
  · rename_i hk
    cases h
    exact .inl ⟨hk, rfl⟩
  · exact .inr h

theorem lookup_of_erase {k' : K} (h : (m.erase k).lookup k' = some v) : m.lookup k' = some v := by
  rw [lookup_erase_eq] at h
  split at h
  · cases h
  · exact h

theorem get_insert (m : GoMap K V) (k k' : K) (v d : V) :
    get (m.insert k v) k' d = if k' = k then v else get m k' d := by
  unfold get
  rw [lookup_insert_eq]
  split <;> rfl

theorem get_erase (m : GoMap K V) (k k' : K) (d : V) : get (m.erase k) k' d = if k' = k then d else get m k' d := by
  unfold get
  rw [lookup_erase_eq]
  split <;> rfl

theorem mem_of_lookup (h : m.lookup k = some v) : k ∈ m.keys := by
  rw [← AList.mem_keys, ← AList.lookup_isSome, h]
  rfl

theorem mem_range {order : List K} : (k, v) ∈ m.range order ↔ m.lookup k = some v := by
  have hmem : k ∈ (if order.Perm m.keys then order else m.keys) ↔ k ∈ m.keys := by
    split
    · rename_i h
      exact h.mem_iff
    · rfl
  simp only [range, mem_filterMap, Option.map_eq_some_iff, Prod.mk.injEq]
  constructor
  · rintro ⟨k', -, v', hv, rfl, rfl⟩
    exact hv
  · intro h
    exact ⟨k, hmem.2 (mem_of_lookup h), v, h, rfl, rfl⟩

theorem exists_range_concat (h : m.lookup k = some v) : ∃ order entries, m.range order = entries ++ [(k, v)] := by
  have hperm : (m.keys.erase k ++ [k]).Perm m.keys :=
    (perm_append_singleton k _).trans (perm_cons_erase (mem_of_lookup h)).symm
  refine ⟨m.keys.erase k ++ [k], (m.keys.erase k).filterMap fun k => (m.lookup k).map (k, ·), ?_⟩
  rw [range, if_pos hperm]
  simp [h]

theorem foldl_overwrite {α β : Type} (p : α → Bool) (f : α → β) (l : List α) :
    l.foldl (fun found a => if p a then some (f a) else found) none = (l.reverse.find? p).map f := by
  rw [← foldr_reverse]
  induction l.reverse with
  | nil => rfl
  | cons a l ih =>
    rw [foldr_cons, find?_cons, ih]
    cases p a <;> rfl

theorem nodup_range_keys (m : GoMap K V) (order : List K) : ((m.range order).map Prod.fst).Nodup := by
  have hnodup : (if order.Perm m.keys then order else m.keys).Nodup := by
    split
    · rename_i h
      exact h.nodup_iff.2 m.keys_nodup
    · exact m.keys_nodup
  rw [range, map_filterMap]
  refine hnodup.filterMap fun k k' b hb hb' => ?_
  simp only [Option.map_map, Option.mem_def, Option.map_eq_some_iff, Function.comp_apply] at hb hb'
  obtain ⟨-, -, rfl⟩ := hb
  obtain ⟨-, -, rfl⟩ := hb'
  rfl

/-- A sum over a range to which only the entry of `k` contributes. -/
theorem sum_range {M : Type} [AddMonoid M] (m : GoMap K V) (order : List K) (k : K) (f : K × V → M)
    (hf : ∀ entry, entry.1 ≠ k → f entry = 0) :
    ((m.range order).map f).sum = ((m.lookup k).map fun v => f (k, v)).getD 0 := by
  cases hv : m.lookup k with
  | none =>
    refine sum_eq_zero fun x hx => ?_
    obtain ⟨⟨k', v⟩, hentry, rfl⟩ := mem_map.1 hx
    refine hf _ ?_
    rintro rfl
    rw [mem_range.1 hentry] at hv
    cases hv
  | some v =>
    let _ : DecidableEq (K × V) := Classical.decEq _
    have hcount : (m.range order).count (k, v) = 1 :=
      count_eq_one_of_mem (.of_map Prod.fst (nodup_range_keys m order)) (mem_range.2 hv)
    rw [sum_map_eq_nsmul_single (k, v) f fun entry hne hentry => hf entry ?_, hcount, one_nsmul]
    · rfl
    · rintro rfl
      rw [mem_range.1 hentry] at hv
      cases hv
      exact hne rfl

end GoMap

end Singlink.Lib
